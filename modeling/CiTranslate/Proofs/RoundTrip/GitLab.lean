import CiTranslate.Provider.GitLab
import CiTranslate.Proofs.Keys
import CiTranslate.Proofs.Node
import CiTranslate.Proofs.Pipeline.Attachment
import CiTranslate.Proofs.Pipeline.Outline
import CiTranslate.Proofs.Zip

/-!
GitLab CI documents that were written are read back.

Jobs stand beside the keys of the configuration. No key of a job is reserved or has a dot in
front (`not_mem_reservedKeys`, `visible_of_mem_jobKeys`), so that every one of them is read as
a job, and attached to the first stage of its name (`read_write`). A pipeline that is sorted
like that and runs nothing but commands is read back as it is (`Settled.read_write`); what was
read back is such a pipeline.
-/

namespace CiTranslate.GitLab

variable {floatText : Float → String}

/-! ### Keys of jobs -/

/-- Names that have a first character, which is not a dot. -/
def Visible (name : String) : Prop := ∃ first rest, name.toList = first :: rest ∧ first ≠ '.'

theorem visible_iff {name : String} :
    Visible name ↔ name ≠ "" ∧ name.toList.head? ≠ some '.' := by
  constructor
  · rintro ⟨first, rest, chars, plain⟩
    refine ⟨?_, by simp [chars, plain]⟩
    rintro rfl
    cases chars
  · rintro ⟨nonempty, plain⟩
    cases chars : name.toList with
    | nil => exact absurd (String.toList_eq_nil_iff.mp chars) nonempty
    | cons first rest =>
      refine ⟨first, rest, chars, fun dot => plain ?_⟩
      rw [chars, List.head?_cons, dot]

theorem visible_keyBase (name : String) : Visible (keyBase name) := by
  unfold keyBase
  split
  · exact ⟨'j', "ob".toList, rfl, by decide⟩
  · next chars ne =>
    cases kept : name.toList.dropWhile (· == '.') with
    | nil => exact absurd kept ne
    | cons first rest =>
      refine ⟨first, rest, String.toList_ofList, ?_⟩
      have plain := List.head?_dropWhile_not (· == '.') name.toList
      rw [kept] at plain
      simpa using plain

theorem Visible.keyBase_eq {name : String} (visible : Visible name) : keyBase name = name := by
  obtain ⟨first, rest, chars, plain⟩ := visible
  have kept : name.toList.dropWhile (· == '.') = first :: rest := by
    rw [chars, List.dropWhile_cons_of_neg (by simpa using plain)]
  rw [keyBase, kept]
  exact (congrArg String.ofList chars.symm).trans String.ofList_toList

theorem Visible.numbered {base : String} (visible : Visible base) (n : Nat) :
    Visible (Keys.numbered base n) := by
  obtain ⟨first, rest, chars, plain⟩ := visible
  exact ⟨first, _, by rw [Keys.toList_numbered, chars, List.cons_append], plain⟩

@[simp] theorem length_jobKeys (pipeline : Pipeline) :
    (jobKeys pipeline).length = (stagedJobs pipeline).length := by
  simp [jobKeys]

theorem nodup_jobKeys (pipeline : Pipeline) : (jobKeys pipeline).Nodup :=
  Keys.nodup_allocateAll _ _

theorem not_mem_reservedKeys {pipeline : Pipeline} {key : String} (mem : key ∈ jobKeys pipeline) :
    key ∉ reservedKeys :=
  Keys.not_mem_allocateAll mem

theorem visible_of_mem_jobKeys {pipeline : Pipeline} {key : String}
    (mem : key ∈ jobKeys pipeline) : Visible key := by
  obtain ⟨base, hbase, form⟩ := Keys.exists_base_of_mem_allocateAll mem
  obtain ⟨named, -, rfl⟩ := List.mem_map.mp hbase
  rcases form with rfl | ⟨n, rfl⟩
  · exact visible_keyBase _
  · exact (visible_keyBase _).numbered n

/-! ### Jobs -/

/-- The job that a job is read back as. -/
def keptJob (key : String) (job : Job) : Job where
  name := key
  steps := job.steps.map fun step => Step.script (line step)

/-- The jobs of a pipeline as they are read back, each beside the name of its stage. -/
def keptJobs (pipeline : Pipeline) : List (String × Job) :=
  List.zipWith (fun key named => (named.1, keptJob key named.2)) (jobKeys pipeline)
    (stagedJobs pipeline)

theorem scriptLines_scalars (lines : List String) :
    scriptLines (some (.sequence (lines.map .scalar))) = lines := by
  simp [scriptLines, List.flatMap_map, itemLines, Node.text?]

theorem readJob_writeJob (key stage : String) (job : Job) :
    readJob key (.ofData floatText (writeJob stage job)) = keptJob key job := by
  have script : (Node.ofData floatText (writeJob stage job)).get? "script" =
      some (.sequence ((job.steps.map line).map .scalar)) := by
    simp [writeJob, Fields.get?_cons]
  rw [readJob, script, scriptLines_scalars, List.map_map]
  rfl

theorem stage_writeJob (stage : String) (job : Job) :
    (Node.ofData floatText (writeJob stage job)).textAtD "stage" defaultJobStage = stage := by
  simp [writeJob, Node.textAtD, Node.textAt?, Fields.get?_cons]

/-! ### Entries -/

/-- Entries of the configuration are no jobs. -/
theorem addEntry_of_reserved {key : String} (reserved : key ∈ reservedKeys) (pipeline : Pipeline)
    (node : Node) : addEntry pipeline (key, node) = pipeline := by
  simp [addEntry, isJob, reserved]

theorem foldl_addEntry_of_reserved {fields : List (String × Data)}
    (reserved : ∀ field ∈ fields, field.1 ∈ reservedKeys) (pipeline : Pipeline) :
    (Fields.mapValues (Node.ofData floatText) fields).foldl addEntry pipeline = pipeline := by
  induction fields with
  | nil => rfl
  | cons field fields ih =>
    rw [Fields.mapValues, List.map_cons, List.foldl_cons, ← Fields.mapValues,
      addEntry_of_reserved (reserved field (List.mem_cons_self ..)),
      ih fun other mem => reserved other (List.mem_cons_of_mem _ mem)]

/-- An entry that was written for a job adds it to its stage. -/
theorem addEntry_writeJob {key : String} (unreserved : key ∉ reservedKeys) (visible : Visible key)
    (pipeline : Pipeline) (stage : String) (job : Job) :
    addEntry pipeline (key, .ofData floatText (writeJob stage job)) =
      (pipeline.attach stage (keptJob key job)).1 := by
  have plain : key.toList.head? ≠ some '.' := (visible_iff.mp visible).2
  have record : (Node.ofData floatText (writeJob stage job)).entries?.isSome := rfl
  have isAJob : isJob key (Node.ofData floatText (writeJob stage job)) = true := by
    simp [isJob, unreserved, plain, record]
  simp only [addEntry, isAJob, if_true, stage_writeJob, readJob_writeJob]

/-- The entries that were written for jobs add them all. -/
theorem foldl_addEntry_writeJob {keys : List String} (jobs : List (String × Job))
    (all : ∀ key ∈ keys, key ∉ reservedKeys ∧ Visible key) (variant : Variant)
    (stages : List Stage) :
    (keys.zip (jobs.map fun named => Node.ofData floatText (writeJob named.1 named.2))).foldl
        addEntry ⟨variant, stages⟩ =
      ⟨variant, Pipeline.attachAll
        (List.zipWith (fun key named => (named.1, keptJob key named.2)) keys jobs) stages⟩ := by
  induction keys generalizing jobs stages with
  | nil => rfl
  | cons key keys ih =>
    cases jobs with
    | nil => rfl
    | cons named jobs =>
      obtain ⟨unreserved, visible⟩ := all key (List.mem_cons_self ..)
      have later := fun other mem => all other (List.mem_cons_of_mem _ mem)
      rw [List.map_cons, List.zip_cons_cons, List.foldl_cons,
        addEntry_writeJob unreserved visible, Pipeline.attach, ih jobs later]
      rfl

/-! ### Documents -/

/-- The fields that stand before the jobs. -/
def configuration (settings : GitLabSettings) (pipeline : Pipeline) : List (String × Data) :=
  (settings.image.map fun image => ("image", Data.text image)).toList ++
    [("stages", .texts pipeline.stageNames)]

/-- The fields of the jobs. -/
def jobFields (pipeline : Pipeline) : List (String × Data) :=
  (jobKeys pipeline).zip ((stagedJobs pipeline).map fun named => writeJob named.1 named.2)

theorem write_eq (settings : GitLabSettings) (pipeline : Pipeline) :
    write settings pipeline = .record (configuration settings pipeline ++ jobFields pipeline) :=
  rfl

theorem names_jobFields (pipeline : Pipeline) :
    (jobFields pipeline).map Prod.fst = jobKeys pipeline :=
  Fields.names_zip (by simp)

theorem configuration_reserved (settings : GitLabSettings) (pipeline : Pipeline) :
    ∀ field ∈ configuration settings pipeline, field.1 ∈ reservedKeys := by
  intro field mem
  unfold configuration at mem
  cases image : settings.image <;> simp [image] at mem
  · subst mem
    simp [reservedKeys]
  · rcases mem with rfl | rfl <;> simp [reservedKeys]

/-- No name is used twice at the top of a document. -/
theorem nodup_names_write (settings : GitLabSettings) (pipeline : Pipeline) :
    ((configuration settings pipeline ++ jobFields pipeline).map Prod.fst).Nodup := by
  rw [List.map_append, names_jobFields]
  refine List.nodup_append.mpr ⟨?_, nodup_jobKeys pipeline, ?_⟩
  · cases image : settings.image <;> simp [configuration, image]
  · rintro name own key mem rfl
    obtain ⟨field, hfield, rfl⟩ := List.mem_map.mp own
    exact not_mem_reservedKeys mem (configuration_reserved settings pipeline field hfield)

theorem readStageNames_write (settings : GitLabSettings) (pipeline : Pipeline) :
    readStageNames (.ofData floatText (write settings pipeline)) = pipeline.stageNames := by
  have stages : (Node.ofData floatText (write settings pipeline)).get? "stages" =
      some (.sequence (pipeline.stageNames.map .scalar)) := by
    rw [write_eq, Node.get?_ofData_record (nodup_names_write settings pipeline), Fields.get?_append]
    cases image : settings.image <;> simp [configuration, image, Fields.get?_cons]
  rw [readStageNames, stages]
  simp [List.filterMap_map, Function.comp_def]

/-- A document is read back with all jobs under their keys, in the first stages of their
names. -/
theorem read_write (settings : GitLabSettings) (pipeline : Pipeline) :
    read (.ofData floatText (write settings pipeline)) =
      { variant := .gitLabCi
        stages := Pipeline.attachAll (keptJobs pipeline)
          (Pipeline.emptyStages pipeline.stageNames) } := by
  have entries : (Node.ofData floatText (write settings pipeline)).entries?.getD [] =
      Fields.mapValues (Node.ofData floatText) (configuration settings pipeline) ++
        (jobKeys pipeline).zip ((stagedJobs pipeline).map fun named =>
          Node.ofData floatText (writeJob named.1 named.2)) := by
    rw [write_eq, Node.ofData_record (nodup_names_write settings pipeline), Fields.mapValues,
      List.map_append, ← Fields.mapValues, ← Fields.mapValues, jobFields, Fields.mapValues_zip,
      List.map_map]
    rfl
  rw [read, entries, readStageNames_write, List.foldl_append,
    foldl_addEntry_of_reserved (configuration_reserved settings pipeline),
    foldl_addEntry_writeJob _ fun key mem => ⟨not_mem_reservedKeys mem, visible_of_mem_jobKeys mem⟩]
  rfl

/-! ### What is read back as it is -/

@[simp] theorem line_script (command : String) : line (Step.script command) = command := rfl

/-- Pipelines that documents can hold as they are: jobs stand in the first stages of their
names, under names that can be their keys, and run commands only. -/
structure Settled (pipeline : Pipeline) : Prop where
  grouped : Pipeline.Grouped pipeline.stages
  distinct : ((pipeline.stages.flatMap Stage.jobs).map Job.name).Nodup
  unreserved : ∀ job ∈ pipeline.stages.flatMap Stage.jobs, job.name ∉ reservedKeys
  visible : ∀ job ∈ pipeline.stages.flatMap Stage.jobs, Visible job.name
  scripts : ∀ job ∈ pipeline.stages.flatMap Stage.jobs, ∀ step ∈ job.steps,
    ∃ command, step = Step.script command

theorem map_snd_stagedJobs (pipeline : Pipeline) :
    (stagedJobs pipeline).map Prod.snd = pipeline.stages.flatMap Stage.jobs :=
  Pipeline.map_snd_stagedJobs pipeline.stages

theorem mem_jobs_of_mem_stagedJobs {pipeline : Pipeline} {named : String × Job}
    (mem : named ∈ stagedJobs pipeline) : named.2 ∈ pipeline.stages.flatMap Stage.jobs := by
  rw [← map_snd_stagedJobs]
  exact List.mem_map.mpr ⟨named, mem, rfl⟩

/-- The names of the jobs are their keys. -/
theorem Settled.jobKeys_eq {pipeline : Pipeline} (settled : Settled pipeline) :
    jobKeys pipeline = (stagedJobs pipeline).map (·.2.name) := by
  have bases : (stagedJobs pipeline).map (fun named => keyBase named.2.name) =
      (stagedJobs pipeline).map (·.2.name) :=
    List.map_congr_left fun named mem =>
      (settled.visible _ (mem_jobs_of_mem_stagedJobs mem)).keyBase_eq
  have names : (stagedJobs pipeline).map (·.2.name) =
      (pipeline.stages.flatMap Stage.jobs).map Job.name := by
    rw [← map_snd_stagedJobs, List.map_map]
    rfl
  have self : jobKeys pipeline = (Keys.allocateAll
      ((stagedJobs pipeline).map fun named => keyBase named.2.name) (.reserving reservedKeys)).1 :=
    rfl
  rw [self, bases]
  refine Keys.allocateAll_eq_self (names ▸ settled.distinct) fun name mem => ?_
  obtain ⟨named, hnamed, rfl⟩ := List.mem_map.mp mem
  exact settled.unreserved _ (mem_jobs_of_mem_stagedJobs hnamed)

theorem Settled.keptJobs_eq {pipeline : Pipeline} (settled : Settled pipeline) :
    keptJobs pipeline = stagedJobs pipeline := by
  rw [keptJobs, settled.jobKeys_eq, List.zipWith_map_left, List.zipWith_self]
  refine (List.map_congr_left fun named mem => ?_).trans (List.map_id _)
  have steps : named.2.steps.map (fun step => Step.script (line step)) = named.2.steps := by
    refine (List.map_congr_left fun step hstep => ?_).trans (List.map_id _)
    obtain ⟨command, rfl⟩ := settled.scripts _ (mem_jobs_of_mem_stagedJobs mem) step hstep
    rfl
  simp only [keptJob, steps, id]

theorem Settled.read_write {pipeline : Pipeline} (settled : Settled pipeline)
    (settings : GitLabSettings) :
    read (.ofData floatText (write settings pipeline)) = pipeline.retarget .gitLabCi := by
  rw [GitLab.read_write, settled.keptJobs_eq]
  exact congrArg (Pipeline.mk _) (Pipeline.attachAll_stagedJobs settled.grouped)

/-! ### What was read back -/

@[simp] theorem length_keptJobs (pipeline : Pipeline) :
    (keptJobs pipeline).length = (stagedJobs pipeline).length := by
  simp [keptJobs]

/-- Jobs are kept beside the names of their stages. -/
theorem map_fst_keptJobs (pipeline : Pipeline) :
    (keptJobs pipeline).map Prod.fst = (stagedJobs pipeline).map Prod.fst := by
  have own (key : String) (named : String × Job) :
      (named.1, keptJob key named.2).1 = named.1 := rfl
  exact map_zipWith_right own (length_jobKeys pipeline)

/-- Jobs are kept under their keys. -/
theorem map_name_keptJobs (pipeline : Pipeline) :
    (keptJobs pipeline).map (·.2.name) = jobKeys pipeline := by
  have own (key : String) (named : String × Job) :
      (named.1, keptJob key named.2).2.name = id key := rfl
  have names := map_zipWith_left (g := fun named : String × Job => named.2.name) own
    (length_jobKeys pipeline)
  rwa [List.map_id] at names

/-- All jobs are kept, each once. -/
theorem perm_jobs (pipeline : Pipeline) :
    ((Pipeline.attachAll (keptJobs pipeline)
      (Pipeline.emptyStages pipeline.stageNames)).flatMap Stage.jobs).Perm
        ((keptJobs pipeline).map Prod.snd) := by
  have known : ∀ named ∈ keptJobs pipeline,
      named.1 ∈ (Pipeline.emptyStages pipeline.stageNames).map Stage.name := by
    intro named mem
    have fst : named.1 ∈ (stagedJobs pipeline).map Prod.fst :=
      map_fst_keptJobs pipeline ▸ List.mem_map.mpr ⟨named, mem, rfl⟩
    obtain ⟨other, hother, same⟩ := List.mem_map.mp fst
    obtain ⟨stage, hstage, name, -⟩ := Pipeline.mem_stagedJobs.mp hother
    rw [Pipeline.map_name_emptyStages, ← same, name]
    exact List.mem_map.mpr ⟨stage, hstage, rfl⟩
  simpa using Pipeline.perm_attachAll known

/-- What was read back is settled. -/
theorem settled_read_write (pipeline : Pipeline) :
    Settled ⟨.gitLabCi, Pipeline.attachAll (keptJobs pipeline)
      (Pipeline.emptyStages pipeline.stageNames)⟩ := by
  have jobs := perm_jobs pipeline
  have names : ((keptJobs pipeline).map Prod.snd).map Job.name = jobKeys pipeline := by
    rw [List.map_map]
    exact map_name_keptJobs pipeline
  have key {job : Job} (mem : job ∈ (Pipeline.attachAll (keptJobs pipeline)
      (Pipeline.emptyStages pipeline.stageNames)).flatMap Stage.jobs) :
      job.name ∈ jobKeys pipeline :=
    names ▸ List.mem_map.mpr ⟨job, jobs.mem_iff.mp mem, rfl⟩
  refine ⟨Pipeline.grouped_attachAll _ _, ?_, ?_, ?_, ?_⟩
  · rw [(jobs.map Job.name).nodup_iff, names]
    exact nodup_jobKeys pipeline
  · exact fun job mem => not_mem_reservedKeys (key mem)
  · exact fun job mem => visible_of_mem_jobKeys (key mem)
  · intro job mem step hstep
    obtain ⟨named, hnamed, rfl⟩ := List.mem_map.mp (jobs.mem_iff.mp mem)
    obtain ⟨i, hi, rfl⟩ := List.getElem_of_mem hnamed
    simp only [keptJobs, List.getElem_zipWith] at hstep
    obtain ⟨original, -, rfl⟩ := List.mem_map.mp hstep
    exact ⟨_, rfl⟩

/-! ### What was read -/

/-- The jobs among the entries of a document, each beside the name of its stage. -/
def entryJobs (entries : List (String × Node)) : List (String × Job) :=
  (entries.filter fun entry => isJob entry.1 entry.2).map fun entry =>
    (entry.2.textAtD "stage" defaultJobStage, readJob entry.1 entry.2)

theorem foldl_addEntry (entries : List (String × Node)) (variant : Variant) (stages : List Stage) :
    entries.foldl addEntry ⟨variant, stages⟩ =
      ⟨variant, Pipeline.attachAll (entryJobs entries) stages⟩ := by
  induction entries generalizing stages with
  | nil => rfl
  | cons entry entries ih =>
    rw [List.foldl_cons, addEntry]
    by_cases own : isJob entry.1 entry.2 = true
    · have jobs : entryJobs (entry :: entries) =
          (entry.2.textAtD "stage" defaultJobStage, readJob entry.1 entry.2) ::
            entryJobs entries := by
        simp only [entryJobs, List.filter_cons, own, if_true, List.map_cons]
      rw [if_pos own, Pipeline.attach, ih, jobs]
      rfl
    · have jobs : entryJobs (entry :: entries) = entryJobs entries := by
        simp only [entryJobs, List.filter_cons, own, Bool.false_eq_true, if_false]
      rw [if_neg own, ih, jobs]

theorem read_eq (document : Node) :
    read document = ⟨.gitLabCi, Pipeline.attachAll (entryJobs (document.entries?.getD []))
      (Pipeline.emptyStages (readStageNames document))⟩ :=
  foldl_addEntry _ _ _

theorem variant_read (document : Node) : (read document).variant = .gitLabCi := by
  rw [read_eq]

theorem grouped_read (document : Node) : Pipeline.Grouped (read document).stages := by
  rw [read_eq]
  exact Pipeline.grouped_attachAll _ _

/-- Every job that is read is an entry of the document. -/
theorem exists_entry_of_mem_jobs {document : Node} {job : Job}
    (mem : job ∈ (read document).jobs) :
    ∃ entry ∈ document.entries?.getD [],
      isJob entry.1 entry.2 = true ∧ job = readJob entry.1 entry.2 := by
  rw [read_eq] at mem
  have attached := (Pipeline.subperm_attachAll _ _).subset mem
  rw [Pipeline.flatMap_jobs_emptyStages, List.nil_append, entryJobs, List.map_map] at attached
  obtain ⟨entry, own, rfl⟩ := List.mem_map.mp attached
  exact ⟨entry, (List.mem_filter.mp own).1, (List.mem_filter.mp own).2, rfl⟩

/-- No two jobs that are read have one name. -/
theorem nodup_names_read {document : Node} (distinct : document.KeysDistinct) :
    ((read document).jobs.map Job.name).Nodup := by
  obtain ⟨kept, perm, sublist⟩ :=
    Pipeline.subperm_attachAll (entryJobs (document.entries?.getD []))
      (Pipeline.emptyStages (readStageNames document))
  rw [Pipeline.flatMap_jobs_emptyStages, List.nil_append] at sublist
  have keys : ((entryJobs (document.entries?.getD [])).map Prod.snd).map Job.name =
      Fields.names ((document.entries?.getD []).filter fun entry => isJob entry.1 entry.2) := by
    rw [entryJobs, List.map_map, List.map_map]
    rfl
  have entries : (Fields.names ((document.entries?.getD []).filter
      fun entry => isJob entry.1 entry.2)).Nodup :=
    distinct.nodup_names_entries.sublist (List.filter_sublist.map Prod.fst)
  rw [read_eq]
  exact (perm.map Job.name).nodup_iff.mp ((keys ▸ entries).sublist (sublist.map Job.name))

/-- Steps of jobs that are read run commands only. -/
theorem scripts_read {document : Node} {job : Job} (mem : job ∈ (read document).jobs) :
    ∀ step ∈ job.steps, ∃ command, step = Step.script command := by
  obtain ⟨entry, -, -, rfl⟩ := exists_entry_of_mem_jobs mem
  intro step own
  obtain ⟨command, -, rfl⟩ := List.mem_map.mp own
  exact ⟨command, rfl⟩

/-- A document is settled, unless it has a job without a name. -/
theorem settled_read {document : Node} (distinct : document.KeysDistinct)
    (named : ∀ job ∈ (read document).jobs, job.name ≠ "") : Settled (read document) := by
  have entry {job : Job} (mem : job ∈ (read document).jobs) :
      job.name ∉ reservedKeys ∧ job.name.toList.head? ≠ some '.' := by
    obtain ⟨entry, -, own, rfl⟩ := exists_entry_of_mem_jobs mem
    simp only [isJob, Bool.and_eq_true, Bool.not_eq_true', bne_iff_ne] at own
    exact ⟨show entry.1 ∉ reservedKeys by simpa using own.1.1, own.1.2⟩
  exact
    { grouped := grouped_read document
      distinct := nodup_names_read distinct
      unreserved := fun job mem => (entry mem).1
      visible := fun job mem => visible_iff.mpr ⟨named job mem, (entry mem).2⟩
      scripts := fun job mem => scripts_read mem }

/-! ### Names -/

theorem visible_of_mem_jobs {settings : GitLabSettings} {pipeline : Pipeline} {job : Job}
    (mem : job ∈ (read (.ofData floatText (write settings pipeline))).jobs) : Visible job.name := by
  rw [read_write] at mem
  exact (settled_read_write pipeline).visible job mem

/-- Only jobs without a name are given another one. -/
theorem outline_read_write_iff (settings : GitLabSettings) {document : Node}
    (distinct : document.KeysDistinct) :
    (read (.ofData floatText (write settings (read document)))).outline =
        (read document).outline ↔
      ∀ job ∈ (read document).jobs, job.name ≠ "" := by
  constructor
  · intro same job mem
    have name : job.name ∈ (read document).jobs.map Job.name := List.mem_map.mpr ⟨job, mem, rfl⟩
    rw [← Pipeline.map_name_jobs_of_outline_eq same] at name
    obtain ⟨other, own, name⟩ := List.mem_map.mp name
    rw [← name]
    exact (visible_iff.mp (visible_of_mem_jobs own)).1
  · intro named
    rw [(settled_read distinct named).read_write settings]
    rfl

theorem map_stepNames_read_write (settings : GitLabSettings) (document : Node) :
    (read (.ofData floatText (write settings (read document)))).stages.map Stage.stepNames =
      (read document).stages.map Stage.stepNames := by
  have flat (stages : List Stage) : stages.map Stage.stepNames =
      (stages.map fun stage => stage.jobs.map fun job => job.steps.map Step.name).map
        List.flatten := by
    rw [List.map_map]
    exact List.map_congr_left fun stage _ => stage.stepNames_eq_flatten
  have lines (key : String) (named : String × Job) :
      (named.1, (keptJob key named.2).steps.map Step.name) =
        (named.1, named.2.steps.map line) := by
    simp only [keptJob, List.map_map]
    rfl
  have same : (keptJobs (read document)).map (fun named => (named.1, named.2.steps.map Step.name)) =
      (stagedJobs (read document)).map (fun named => (named.1, named.2.steps.map Step.name)) := by
    refine (map_zipWith_right lines (length_jobKeys _)).trans ?_
    refine List.map_congr_left fun named mem => Prod.ext rfl ?_
    refine List.map_congr_left fun step own => ?_
    obtain ⟨command, rfl⟩ := scripts_read (mem_jobs_of_mem_stagedJobs mem) step own
    rfl
  calc (read (.ofData floatText (write settings (read document)))).stages.map Stage.stepNames
      = (Pipeline.attachAll (keptJobs (read document))
          (Pipeline.emptyStages (read document).stageNames)).map Stage.stepNames := by
        rw [read_write]
    _ = (Pipeline.attachAll (stagedJobs (read document))
          (Pipeline.emptyStages (read document).stageNames)).map Stage.stepNames := by
        rw [flat, flat, Pipeline.map_jobs_attachAll_congr _ same]
    _ = (read document).stages.map Stage.stepNames :=
        congrArg (List.map Stage.stepNames)
          (Pipeline.attachAll_stagedJobs (grouped_read document))

/-- **Documents keep all jobs.** The names of the stages come back as they were, repeated ones
too. Every job comes back exactly once, in the first stage that has the name of its stage, and
in the order of the document. Its name is the key under which it was written, new among all
keys and read as a job; it runs the lines of its steps. What was read back is not changed by
another pass, whatever the image, and a pipeline that only runs commands under names that can
be keys is not changed at all. -/
theorem document_round_trip (settings later : GitLabSettings) (pipeline : Pipeline) :
    let restored := read (.ofYaml (write settings pipeline))
    let staged := pipeline.stages.flatMap fun stage => stage.jobs.map fun job => (stage.name, job)
    let keys := (Keys.allocateAll (staged.map fun (_, job) => keyBase job.name)
      (.reserving reservedKeys)).1
    let kept := List.zipWith (fun key (stage, job) => (stage,
      ({ name := key
         steps := job.steps.map fun step =>
          .script (step.command?.getD s!"# {step.name}: {step.task}") } : Job))) keys staged
    restored.variant = .gitLabCi ∧
      restored.stageNames = pipeline.stageNames ∧
      (∀ i : Nat, restored.stages[i]? = pipeline.stages[i]?.map fun stage =>
        { name := stage.name
          jobs :=
            if stage.name ∈ pipeline.stageNames.take i then []
            else (kept.filter (·.1 = stage.name)).map Prod.snd }) ∧
      (restored.stages.flatMap Stage.jobs).Perm (kept.map Prod.snd) ∧
      kept.length = staged.length ∧ keys.Nodup ∧
      (∀ key ∈ keys, key ∉ reservedKeys ∧ key.toList.head? ≠ some '.') ∧
      read (.ofYaml (write later restored)) = restored ∧
      (pipeline.stageNames.Nodup → (staged.map (·.2.name)).Nodup →
        (∀ named ∈ staged, named.2.name ≠ "" ∧ named.2.name ∉ reservedKeys ∧
          named.2.name.toList.head? ≠ some '.') →
        (∀ step ∈ pipeline.steps, ∃ command, step = .script command) →
        restored = pipeline.retarget .gitLabCi) := by
  intro restored staged keys kept
  have shape : restored = ⟨.gitLabCi, Pipeline.attachAll (keptJobs pipeline)
      (Pipeline.emptyStages pipeline.stageNames)⟩ := read_write settings pipeline
  refine ⟨by rw [shape], ?_, ?_, ?_, length_keptJobs pipeline, nodup_jobKeys pipeline, ?_, ?_, ?_⟩
  · rw [shape, Pipeline.stageNames, Pipeline.map_name_attachAll, Pipeline.map_name_emptyStages]
  · intro i
    rw [shape, Pipeline.getElem?_attachAll, Pipeline.emptyStages, Pipeline.stageNames,
      List.map_map, List.getElem?_map, Option.map_map]
    refine congrArg (fun f => Option.map f _) (funext fun stage => ?_)
    simp only [Function.comp_apply, List.nil_append, ← List.map_take, List.map_map]
    rfl
  · rw [shape]
    exact perm_jobs pipeline
  · exact fun key mem => ⟨not_mem_reservedKeys mem, (visible_iff.mp (visible_of_mem_jobKeys mem)).2⟩
  · rw [shape]
    exact (settled_read_write pipeline).read_write later
  · intro distinct names keys scripts
    have jobs : staged.map Prod.snd = pipeline.stages.flatMap Stage.jobs :=
      map_snd_stagedJobs pipeline
    have key : ∀ job ∈ pipeline.stages.flatMap Stage.jobs,
        job.name ≠ "" ∧ job.name ∉ reservedKeys ∧ job.name.toList.head? ≠ some '.' := by
      intro job mem
      rw [← jobs] at mem
      obtain ⟨named, hnamed, rfl⟩ := List.mem_map.mp mem
      exact keys named hnamed
    refine Settled.read_write ⟨.of_nodup distinct, ?_, ?_, ?_, ?_⟩ settings
    · rw [← jobs, List.map_map]
      exact names
    · exact fun job mem => (key job mem).2.1
    · exact fun job mem => visible_iff.mpr ⟨(key job mem).1, (key job mem).2.2⟩
    · intro job mem step hstep
      obtain ⟨stage, hstage, hjob⟩ := List.mem_flatMap.mp mem
      exact scripts step (List.mem_flatMap.mpr
        ⟨stage, hstage, List.mem_flatMap.mpr ⟨job, hjob, hstep⟩⟩)

/-- Two stages whose jobs run commands only. -/
def buildAndTest : Pipeline where
  variant := .bamboo
  stages := [
    { name := "build", jobs := [
        { name := "compile", steps := [.script "make", .script "# done: now"] },
        { name := "stage-2" }] },
    { name := "test", jobs := [{ name := "stage", steps := [.script "make test"] }] }]

/-- Pipelines that are not changed at all exist. -/
theorem document_round_trip_buildAndTest :
    buildAndTest.stageNames.Nodup ∧
      read (.ofYaml (write { image := some "rust:1" } buildAndTest)) =
        buildAndTest.retarget .gitLabCi := by
  obtain ⟨-, -, -, -, -, -, -, -, unchanged⟩ :=
    document_round_trip { image := some "rust:1" } {} buildAndTest
  refine ⟨by decide, unchanged (by decide) (by decide) (by decide) ?_⟩
  intro step mem
  have steps : buildAndTest.steps =
      ["make", "# done: now", "make test"].map Step.script := rfl
  rw [steps] at mem
  obtain ⟨command, -, rfl⟩ := List.mem_map.mp mem
  exact ⟨command, rfl⟩

end CiTranslate.GitLab

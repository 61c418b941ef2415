import CiTranslate.Proofs.RoundTrip.GitLab

/-!
Which jobs are read from a GitLab CI document, and in which stages they are.

Reading adds the entries at the top one after the other to the stages. What comes of it is said
here without going through the entries: a stage holds the jobs of the entries that define a job and
name the stage (`filter_entryJobs`), in the order of the document, unless an earlier stage has its
name. Jobs of stages that are not declared are not read.
-/

namespace CiTranslate.GitLab

/-! ### Entries -/

/-- An entry at the top that defines a job. -/
structure DefinesJob (entry : String × Node) : Prop where
  unreserved : entry.1 ∉ reservedKeys
  visible : entry.1.toList.head? ≠ some '.'
  mapping : ∃ fields, entry.2 = .mapping fields

/-- The name of the stage of a job: the scalar under `stage`, or else `test`. -/
def stageOf (node : Node) : String :=
  match node.get? "stage" with
  | some (.scalar stage) => stage
  | _ => "test"

/-- The items of a list in the place of the list. -/
def spread : Node → List Node
  | .sequence items => items
  | node => [node]

/-- The commands of a script: the only one, or the scalars of a list after the lists in it were
taken apart. -/
def commands (node : Node) : List String :=
  match node.get? "script" with
  | some (.scalar command) => [command]
  | some (.sequence items) => (items.flatMap spread).filterMap Node.text?
  | _ => []

/-- The job that an entry defines. -/
def definedJob (entry : String × Node) : Job where
  name := entry.1
  steps := (commands entry.2).map Step.script

theorem definesJob_iff {entry : String × Node} :
    DefinesJob entry ↔ isJob entry.1 entry.2 = true := by
  have record : entry.2.entries?.isSome = true ↔ ∃ fields, entry.2 = .mapping fields := by
    cases entry.2 <;> simp [Node.entries?]
  rw [isJob, Bool.and_eq_true, Bool.and_eq_true, record, Bool.not_eq_true', bne_iff_ne]
  constructor
  · intro defines
    exact ⟨⟨by simpa using defines.unreserved, defines.visible⟩, defines.mapping⟩
  · rintro ⟨⟨unreserved, visible⟩, mapping⟩
    exact ⟨by simpa using unreserved, visible, mapping⟩

instance : DecidablePred DefinesJob := fun _ => decidable_of_iff _ definesJob_iff.symm

theorem textAtD_stage (node : Node) : node.textAtD "stage" defaultJobStage = stageOf node := by
  rw [Node.textAtD, Node.textAt?, stageOf]
  rcases node.get? "stage" with _ | (_ | _ | _ | _) <;> rfl

theorem itemLines_eq (item : Node) : itemLines item = (spread item).filterMap Node.text? := by
  cases item <;> rfl

theorem readJob_eq (entry : String × Node) : readJob entry.1 entry.2 = definedJob entry := by
  have lines : scriptLines (entry.2.get? "script") = commands entry.2 := by
    rw [commands]
    rcases entry.2.get? "script" with _ | (_ | _ | items | _)
    · rfl
    · rfl
    · rfl
    · have taken : items.flatMap itemLines = (items.flatMap spread).filterMap Node.text? := by
        rw [List.filterMap_flatMap]
        exact congrArg (items.flatMap ·) (funext itemLines_eq)
      exact taken
    · rfl
  rw [readJob, lines, definedJob]

/-- The jobs beside certain stages are those of the entries that define a job and name one of
these stages. -/
theorem filter_entryJobs (keep : String → Bool) (entries : List (String × Node)) :
    ((entryJobs entries).filter fun named => keep named.1).map Prod.snd =
      (entries.filter fun entry => DefinesJob entry ∧ keep (stageOf entry.2)).map definedJob := by
  have kept : (entries.filter fun entry => keep (stageOf entry.2) && isJob entry.1 entry.2) =
      entries.filter fun entry => DefinesJob entry ∧ keep (stageOf entry.2) := by
    apply List.filter_congr
    intro entry _
    rw [Bool.eq_iff_iff, Bool.and_eq_true, decide_eq_true_iff, definesJob_iff, and_comm]
  simp only [entryJobs, List.filter_map, List.map_map, List.filter_filter, Function.comp_def,
    textAtD_stage, readJob_eq, kept]

theorem map_name_definedJob (entries : List (String × Node)) :
    (entries.map definedJob).map Job.name = Fields.names entries := by
  rw [List.map_map, Fields.names]
  rfl

/-! ### Documents -/

/-- **Every job is attached once.** The stages of a document are the scalars of the list under
`stages`, or else build, test and deploy. A stage has exactly the jobs of the entries that define a
job and name the stage, in the order of the document, and none if an earlier stage has its name.
Together these are the jobs of all entries that define a job and name a stage of the document, each
once; so where no key stands twice, no job has the key of any other entry. -/
theorem read_attaches_once (entries : List (String × Node)) :
    let pipeline := read (.mapping entries)
    let names := match Fields.get? "stages" entries with
      | some (.sequence items) => items.filterMap Node.text?
      | _ => ["build", "test", "deploy"]
    pipeline.variant = .gitLabCi ∧
      pipeline.stageNames = names ∧
      (∀ i : Nat, pipeline.stages[i]? = names[i]?.map fun name =>
        { name := name
          jobs := if name ∈ names.take i then [] else
            (entries.filter fun entry => DefinesJob entry ∧ stageOf entry.2 = name).map
              definedJob }) ∧
      pipeline.jobs.Perm
        ((entries.filter fun entry => DefinesJob entry ∧ stageOf entry.2 ∈ names).map
          definedJob) ∧
      ((Fields.names entries).Nodup → (pipeline.jobs.map Job.name).Nodup ∧
        ∀ entry ∈ entries, entry.1 ∈ pipeline.jobs.map Job.name ↔
          DefinesJob entry ∧ stageOf entry.2 ∈ names) := by
  intro pipeline names
  have shape : pipeline = ⟨.gitLabCi, Pipeline.attachAll (entryJobs entries)
      (Pipeline.emptyStages names)⟩ := read_eq (.mapping entries)
  have perm : pipeline.jobs.Perm
      ((entries.filter fun entry => DefinesJob entry ∧ stageOf entry.2 ∈ names).map
        definedJob) := by
    have all := Pipeline.perm_attachAll_known (entryJobs entries) (Pipeline.emptyStages names)
    rw [Pipeline.map_name_emptyStages, Pipeline.flatMap_jobs_emptyStages, List.nil_append,
      filter_entryJobs fun stage => decide (stage ∈ names)] at all
    simp only [decide_eq_true_eq] at all
    rw [shape]
    exact all
  refine ⟨variant_read _, ?_, ?_, perm, ?_⟩
  · rw [shape, Pipeline.stageNames, Pipeline.map_name_attachAll, Pipeline.map_name_emptyStages]
  · intro i
    have own (name : String) : Pipeline.jobsOf name (entryJobs entries) =
        (entries.filter fun entry => DefinesJob entry ∧ stageOf entry.2 = name).map
          definedJob := by
      rw [Pipeline.jobsOf, filter_entryJobs fun stage => decide (stage = name)]
      simp only [decide_eq_true_eq]
    have earlier : ((Pipeline.emptyStages names).take i).map Stage.name = names.take i := by
      rw [List.map_take, Pipeline.map_name_emptyStages]
    rw [shape, Pipeline.getElem?_attachAll, earlier, Pipeline.emptyStages, List.getElem?_map,
      Option.map_map]
    simp only [Function.comp_def, List.nil_append, own]
  · intro distinct
    have called := perm.map Job.name
    rw [map_name_definedJob] at called
    constructor
    · apply called.nodup_iff.mpr
      exact distinct.sublist (List.filter_sublist.map Prod.fst)
    · intro entry mem
      rw [called.mem_iff]
      constructor
      · intro named
        obtain ⟨other, kept, same⟩ := List.mem_map.mp named
        obtain ⟨there, defines⟩ := List.mem_filter.mp kept
        rw [List.inj_on_of_nodup_map distinct there mem same] at defines
        exact of_decide_eq_true defines
      · intro defines
        exact List.mem_map.mpr ⟨entry, List.mem_filter.mpr ⟨mem, decide_eq_true defines⟩, rfl⟩

/-- Of a document with two stages of one name, in which a template, a setting and a job of a stage
that is not declared stand between the jobs. -/
theorem read_attaches_once_templates :
    let script : Node := .sequence [.scalar "make", .sequence [.scalar "make test", .null], .null]
    let entries : List (String × Node) :=
      [("stages", .sequence [.scalar "build", .null, .scalar "test", .scalar "build"]),
        (".common", .mapping []),
        ("compile", .mapping [("stage", .scalar "build"), ("script", script)]),
        ("release", .mapping [("stage", .scalar "deploy")]),
        ("variables", .mapping []),
        ("unit", .mapping [("script", .scalar "make check")])]
    let pipeline := read (.mapping entries)
    (Fields.names entries).Nodup ∧ pipeline.jobs.map Job.name = ["compile", "unit"] ∧
      (pipeline.jobs.map Job.name).Nodup ∧
      (∀ entry ∈ entries, entry.1 ∈ pipeline.jobs.map Job.name ↔
        DefinesJob entry ∧ stageOf entry.2 ∈ ["build", "test", "build"]) ∧
      pipeline.stages[0]? = some ⟨"build", [⟨"compile", [.script "make", .script "make test"]⟩]⟩ ∧
      pipeline.stages[2]? = some ⟨"build", []⟩ := by
  intro script entries pipeline
  have distinct : (Fields.names entries).Nodup := by decide
  obtain ⟨-, -, stages, -, names⟩ := read_attaches_once entries
  obtain ⟨nodup, defines⟩ := names distinct
  exact ⟨distinct, by decide, nodup, defines, (stages 0).trans (by decide),
    (stages 2).trans (by decide)⟩

end CiTranslate.GitLab

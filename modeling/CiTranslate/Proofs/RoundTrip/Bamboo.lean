import CiTranslate.Provider.Bamboo
import CiTranslate.Proofs.InputValue
import CiTranslate.Proofs.Keys
import CiTranslate.Proofs.Pipeline.Outline
import CiTranslate.Proofs.Zip

/-!
Bamboo specs that were written are read back.
-/

namespace CiTranslate.Bamboo

variable {floatText : Float → String}

/-! ### Steps -/

/-- The step that a step is read back as. Specs have no conditions. -/
def keptStep (floatText : Float → String) (step : Step) : Step :=
  { step.rendered floatText with condition := none }

theorem readScript_eq {script : Node} {entries : List (String × Node)} {command : String}
    (shape : script = .mapping entries)
    (lines : script.get? "scripts" = some (.sequence [.scalar command])) :
    readScript script = .namedScript ((script.textAt? "description").getD command) command := by
  have joined : scriptLines script = [command] := by
    subst shape
    change ((Node.get? "scripts" (.mapping entries)).map scriptsOf).getD [] = [command]
    rw [lines]
    rfl
  have whole : "\n".intercalate [command] = command := by simp
  rw [readScript, joined, whole]
  cases script.textAt? "description" <;> rfl

theorem readStep_script (body : Node) : readStep (.mapping [("script", body)]) = readScript body :=
  rfl

theorem readStep_plugin (body : Node) : readStep (.mapping [("any-task", body)]) =
    { name := body.textAtD "description" (body.textAtD "plugin-key" unnamed.task)
      task := body.textAtD "plugin-key" unnamed.task
      inputs := .ofNodeAt "configuration" body } := rfl

theorem readStep_writeStep (step : Step) :
    readStep (.ofData floatText (writeStep step)) = keptStep floatText step := by
  cases script : step.command? with
  | some command =>
    obtain ⟨body, written⟩ : ∃ body, body = Node.ofData floatText (.recordOf
        [("description", if step.name = command then none else some (.text step.name)),
          ("scripts", some (.texts [command]))]) := ⟨_, rfl⟩
    have entry : Node.ofData floatText (writeStep step) = .mapping [("script", body)] := by
      simp only [writeStep, script, written]
      exact Node.ofData_record (by simp)
    obtain ⟨entries, shape⟩ := Node.exists_mapping_ofData_recordOf floatText
        [("description", if step.name = command then none else some (.text step.name)),
          ("scripts", some (.texts [command]))]
    have lines : body.get? "scripts" = some (.sequence [.scalar command]) := by
      simp [written, Fields.get?_cons]
    have name : (body.textAt? "description").getD command = step.name := by
      by_cases same : step.name = command <;>
        simp [written, same, Node.textAt?, Fields.get?_cons]
    rw [entry, readStep_script, readScript_eq (written.trans shape) lines, name, keptStep,
      Step.rendered_of_command script]
    rfl
  | none =>
    obtain ⟨body, written⟩ : ∃ body, body = Node.ofData floatText (.recordOf
        [("plugin-key", some (.text step.task)), ("description", some (.text step.name)),
          ("configuration", step.inputs.toData?)]) := ⟨_, rfl⟩
    have entry : Node.ofData floatText (writeStep step) = .mapping [("any-task", body)] := by
      simp only [writeStep, script, written]
      exact Node.ofData_record (by simp)
    have task : body.textAtD "plugin-key" unnamed.task = step.task := by
      simp [written, Node.textAtD, Node.textAt?, Fields.get?_cons]
    have name : body.textAtD "description" step.task = step.name := by
      simp [written, Node.textAtD, Node.textAt?, Fields.get?_cons]
    have inputs : Inputs.ofNodeAt "configuration" body = step.inputs.rendered floatText :=
      Inputs.ofNodeAt_toData? _ (by simp [written, Fields.get?_cons])
    rw [entry, readStep_plugin, task, name, inputs, keptStep, Step.rendered_of_none script]

/-! ### Jobs -/

/-- The job that a job is read back as. -/
def keptJob (floatText : Float → String) (key : String) (job : Job) : Job where
  name := key
  steps := job.steps.map (keptStep floatText)

theorem readTasks_writeJob (job : Job) :
    readTasks (.ofData floatText (writeJob job)) = job.steps.map (keptStep floatText) := by
  have tasks : (Node.ofData floatText (writeJob job)).itemsAt "tasks" =
      job.steps.map (Node.ofData floatText ∘ writeStep) := by
    simp [writeJob, Node.itemsAt, Fields.get?_cons]
  have steps : (Node.ofData floatText (writeJob job)).itemsAt "steps" = [] := by
    simp [writeJob, Node.itemsAt, Fields.get?_cons, Node.items]
  have same : (job.steps.map (Node.ofData floatText ∘ writeStep)).map readStep =
      job.steps.map (keptStep floatText) := by
    simp only [List.map_map, Function.comp_def, readStep_writeStep]
  rw [readTasks, tasks, steps, ← same]
  cases job.steps <;> rfl

/-- A job that is listed by its key is read from what stands under that key. -/
theorem readJob_key {document : Node} {key : String} {job : Job}
    (held : document.get? key = some (.ofData floatText (writeJob job))) :
    readJob document (.scalar key) = keptJob floatText key job := by
  simp only [readJob, held, Option.map_some, Option.getD_some, readTasks_writeJob, keptJob]

theorem map_readJob_eq_zipWith {document : Node} {keys : List String} {jobs : List Job}
    (lengths : keys.length = jobs.length)
    (held : ∀ pair ∈ keys.zip jobs,
      document.get? pair.1 = some (.ofData floatText (writeJob pair.2))) :
    keys.map (fun key => readJob document (.scalar key)) =
      List.zipWith (keptJob floatText) keys jobs := by
  induction keys generalizing jobs with
  | nil => rfl
  | cons key keys ih =>
    cases jobs with
    | nil => cases lengths
    | cons job jobs =>
      have first := readJob_key (held (key, job) (List.mem_cons_self ..))
      have later := ih (Nat.succ.inj lengths) fun pair mem => held pair (List.mem_cons_of_mem _ mem)
      rw [List.map_cons, List.zipWith_cons_cons, first, later]

/-! ### Stages -/

/-- A stage that is written under its name is read back, also where the name is that of the
field in which a stage may have its name. -/
theorem stageEntry_named (name : String) (entries : List (String × Node)) :
    stageEntry (.mapping [(name, .mapping entries)]) = (name, .mapping entries) := by
  have unnamed : Node.textAt? "name" (.mapping [(name, .mapping entries)]) = none := by
    simp only [Node.textAt?, Node.get?, Fields.get?_cons]
    split <;> rfl
  simp only [stageEntry, unnamed]

/-- The stages that stages are read back as, with the keys of their jobs. -/
def keptStages (floatText : Float → String) : List String → List Stage → List Stage
  | _, [] => []
  | keys, stage :: stages =>
    { name := stage.name
      jobs := List.zipWith (keptJob floatText) (keys.take stage.jobs.length) stage.jobs } ::
      keptStages floatText (keys.drop stage.jobs.length) stages

theorem readStage_writeStages {document : Node} {keys : List String} {stages : List Stage}
    (lengths : keys.length = (stages.flatMap Stage.jobs).length)
    (held : ∀ pair ∈ keys.zip (stages.flatMap Stage.jobs),
      document.get? pair.1 = some (.ofData floatText (writeJob pair.2))) :
    (writeStages keys stages).map (fun entry => readStage document (.ofData floatText entry)) =
      keptStages floatText keys stages := by
  induction stages generalizing keys with
  | nil => rfl
  | cons stage stages ih =>
    rw [List.flatMap_cons, List.length_append] at lengths
    have own : (keys.take stage.jobs.length).length = stage.jobs.length :=
      List.length_take_of_le (by omega)
    have split : keys.zip ((stage :: stages).flatMap Stage.jobs) =
        (keys.take stage.jobs.length).zip stage.jobs ++
          (keys.drop stage.jobs.length).zip (stages.flatMap Stage.jobs) := by
      rw [← List.zip_append own, List.take_append_drop, List.flatMap_cons]
    rw [split] at held
    have entry : Node.ofData floatText (.record [(stage.name,
          .record [("jobs", .texts (keys.take stage.jobs.length))])]) =
        .mapping [(stage.name, .mapping
          [("jobs", .sequence ((keys.take stage.jobs.length).map .scalar))])] := by
      rw [Node.ofData_record (by simp)]
      simp [Fields.mapValues, Node.ofData_record]
    have jobs : readStage document (.mapping [(stage.name, .mapping
          [("jobs", .sequence ((keys.take stage.jobs.length).map .scalar))])]) =
        { name := stage.name
          jobs := List.zipWith (keptJob floatText) (keys.take stage.jobs.length) stage.jobs } := by
      rw [readStage, stageEntry_named, ← map_readJob_eq_zipWith own fun pair mem =>
        held pair (List.mem_append_left _ mem)]
      simp [Node.itemsAt, Node.get?, Fields.get?_cons, Function.comp_def]
    rw [writeStages, List.map_cons, keptStages, entry, jobs,
      ih (by rw [List.length_drop]; omega) fun pair mem => held pair (List.mem_append_right _ mem)]

/-! ### Specs -/

@[simp] theorem length_jobKeys (pipeline : Pipeline) :
    (jobKeys pipeline).length = (allJobs pipeline).length := by
  simp [jobKeys]

theorem nodup_jobKeys (pipeline : Pipeline) : (jobKeys pipeline).Nodup :=
  Keys.nodup_allocateAll _ _

theorem not_mem_reservedKeys {pipeline : Pipeline} {key : String} (mem : key ∈ jobKeys pipeline) :
    key ∉ reservedKeys :=
  Keys.not_mem_allocateAll mem

/-- The fields that stand before the jobs. -/
def planFields (settings : BambooSettings) (pipeline : Pipeline) : List (String × Data) :=
  [("version", .int 2),
    ("plan", .record [("project-key", .text settings.projectKey), ("key", .text settings.planKey),
      ("name", .text settings.planName)]),
    ("stages", .list (writeStages (jobKeys pipeline) pipeline.stages))]

theorem write_eq (settings : BambooSettings) (pipeline : Pipeline) :
    write settings pipeline = .record
      (planFields settings pipeline ++ (jobKeys pipeline).zip ((allJobs pipeline).map writeJob)) :=
  rfl

/-- No name is used twice at the top of specs. -/
theorem nodup_names_write (settings : BambooSettings) (pipeline : Pipeline) :
    ((planFields settings pipeline ++
      (jobKeys pipeline).zip ((allJobs pipeline).map writeJob)).map Prod.fst).Nodup := by
  have keys : ((jobKeys pipeline).zip ((allJobs pipeline).map writeJob)).map Prod.fst =
      jobKeys pipeline := Fields.names_zip (by simp)
  rw [List.map_append, keys]
  refine List.nodup_append.mpr ⟨by simp [planFields], nodup_jobKeys pipeline, ?_⟩
  rintro name own key mem rfl
  have reserved : name ∈ reservedKeys := by
    simp only [planFields, List.map_cons, List.map_nil, List.mem_cons, List.not_mem_nil,
      or_false] at own
    rcases own with rfl | rfl | rfl <;> decide
  exact not_mem_reservedKeys mem reserved

/-- Every job is found under its key. -/
theorem get?_key (settings : BambooSettings) {pipeline : Pipeline} {pair : String × Job}
    (mem : pair ∈ (jobKeys pipeline).zip (allJobs pipeline)) :
    (Node.ofData floatText (write settings pipeline)).get? pair.1 =
      some (.ofData floatText (writeJob pair.2)) := by
  have field : (pair.1, writeJob pair.2) ∈
      (jobKeys pipeline).zip ((allJobs pipeline).map writeJob) := by
    rw [List.zip_map_right]
    exact List.mem_map.mpr ⟨pair, mem, rfl⟩
  have distinct := nodup_names_write settings pipeline
  rw [write_eq, Node.get?_ofData_record distinct,
    Fields.get?_eq_some_of_mem distinct (List.mem_append_right _ field)]
  rfl

/-- Specs are read back stage by stage, with the keys of the jobs as their names. -/
theorem read_write (settings : BambooSettings) (pipeline : Pipeline) :
    read (.ofData floatText (write settings pipeline)) =
      { variant := .bamboo
        stages := keptStages floatText (jobKeys pipeline) pipeline.stages } := by
  set document := Node.ofData floatText (write settings pipeline) with written
  have distinct := nodup_names_write settings pipeline
  have stages : document.itemsAt "stages" =
      (writeStages (jobKeys pipeline) pipeline.stages).map (Node.ofData floatText) := by
    rw [Node.itemsAt, written, write_eq, Node.get?_ofData_record distinct, Fields.get?_append]
    simp [planFields, Fields.get?_cons]
  have plan : ((document.get? "plan").getD .null).itemsAt "stages" = [] := by
    rw [written, write_eq, Node.get?_ofData_record distinct, Fields.get?_append]
    simp [planFields, Fields.get?_cons, Node.itemsAt, Node.items]
  have held : ∀ pair ∈ (jobKeys pipeline).zip (pipeline.stages.flatMap Stage.jobs),
      document.get? pair.1 = some (.ofData floatText (writeJob pair.2)) :=
    fun pair mem => get?_key settings mem
  have kept := readStage_writeStages (length_jobKeys pipeline) held
  rw [read, stages, plan, ← kept]
  cases writeStages (jobKeys pipeline) pipeline.stages with
  | nil => rfl
  | cons entry entries => simp only [List.map_cons, List.map_map, Function.comp_def]

/-! ### A second pass -/

@[simp] theorem keptStep_keptStep (step : Step) :
    keptStep floatText (keptStep floatText step) = keptStep floatText step := by
  have forget (other : Step) : ({ other with condition := none } : Step).rendered floatText =
      { other.rendered floatText with condition := none } := by
    have command : ({ other with condition := none } : Step).command? = other.command? := rfl
    simp only [Step.rendered, command]
    cases other.command? <;> rfl
  rw [keptStep, keptStep, forget, Step.rendered_rendered]

@[simp] theorem keptJob_keptJob (key : String) (job : Job) :
    keptJob floatText key (keptJob floatText key job) = keptJob floatText key job := by
  simp only [keptJob, List.map_map, Function.comp_def, keptStep_keptStep]

theorem length_zipWith_keptJob (floatText : Float → String) {keys : List String} {jobs : List Job}
    (enough : jobs.length ≤ keys.length) :
    (List.zipWith (keptJob floatText) (keys.take jobs.length) jobs).length = jobs.length := by
  rw [List.length_zipWith, List.length_take_of_le enough, Nat.min_self]

theorem map_name_keptStages (keys : List String) (stages : List Stage) :
    (keptStages floatText keys stages).map Stage.name = stages.map Stage.name := by
  induction stages generalizing keys with
  | nil => rfl
  | cons stage stages ih => rw [keptStages, List.map_cons, List.map_cons, ih]

/-- Every stage keeps the number of its jobs. -/
theorem map_length_keptStages {keys : List String} {stages : List Stage}
    (lengths : keys.length = (stages.flatMap Stage.jobs).length) :
    (keptStages floatText keys stages).map (·.jobs.length) = stages.map (·.jobs.length) := by
  induction stages generalizing keys with
  | nil => rfl
  | cons stage stages ih =>
    rw [List.flatMap_cons, List.length_append] at lengths
    have own := length_zipWith_keptJob floatText (show stage.jobs.length ≤ keys.length by omega)
    rw [keptStages, List.map_cons, List.map_cons, own, ih (by rw [List.length_drop]; omega)]

/-- The jobs of all stages are kept one by one under the keys of all stages. -/
theorem flatMap_jobs_keptStages {keys : List String} {stages : List Stage}
    (lengths : keys.length = (stages.flatMap Stage.jobs).length) :
    (keptStages floatText keys stages).flatMap Stage.jobs =
      List.zipWith (keptJob floatText) keys (stages.flatMap Stage.jobs) := by
  induction stages generalizing keys with
  | nil => simp [keptStages]
  | cons stage stages ih =>
    rw [List.flatMap_cons, List.length_append] at lengths
    have own : (keys.take stage.jobs.length).length = stage.jobs.length :=
      List.length_take_of_le (by omega)
    rw [keptStages, List.flatMap_cons, ih (by rw [List.length_drop]; omega), List.flatMap_cons,
      ← List.zipWith_append own, List.take_append_drop]

theorem keptStages_keptStages {keys : List String} {stages : List Stage}
    (lengths : keys.length = (stages.flatMap Stage.jobs).length) :
    keptStages floatText keys (keptStages floatText keys stages) =
      keptStages floatText keys stages := by
  induction stages generalizing keys with
  | nil => rfl
  | cons stage stages ih =>
    rw [List.flatMap_cons, List.length_append] at lengths
    have own := length_zipWith_keptJob floatText (show stage.jobs.length ≤ keys.length by omega)
    rw [keptStages, keptStages, own, ih (by rw [List.length_drop]; omega),
      zipWith_zipWith_self keptJob_keptJob]

theorem names_zipWith_keptJob {keys : List String} {jobs : List Job}
    (lengths : keys.length = jobs.length) :
    (List.zipWith (keptJob floatText) keys jobs).map Job.name = keys := by
  have own (key : String) (job : Job) : (keptJob floatText key job).name = id key := rfl
  rw [map_zipWith_left own lengths, List.map_id]

/-- The keys of what was read back are the names that its jobs have already. -/
theorem jobKeys_keptStages (pipeline : Pipeline) (variant : Variant) :
    jobKeys ⟨variant, keptStages floatText (jobKeys pipeline) pipeline.stages⟩ =
      jobKeys pipeline := by
  have lengths := length_jobKeys pipeline
  have jobs : allJobs ⟨variant, keptStages floatText (jobKeys pipeline) pipeline.stages⟩ =
      List.zipWith (keptJob floatText) (jobKeys pipeline) (allJobs pipeline) :=
    flatMap_jobs_keptStages lengths
  rw [jobKeys, jobs, names_zipWith_keptJob lengths]
  exact Keys.allocateAll_eq_self (nodup_jobKeys pipeline) fun key mem => not_mem_reservedKeys mem

/-! ### Names -/

@[simp] theorem name_keptStep (step : Step) : (keptStep floatText step).name = step.name :=
  Step.name_rendered step

/-- The jobs of a stage keep their names where these are the keys. -/
theorem map_names_zipWith_keptJob_iff (floatText : Float → String) {keys : List String}
    {jobs : List Job} (lengths : keys.length = jobs.length) :
    (List.zipWith (keptJob floatText) keys jobs).map
        (fun job => (job.name, job.steps.map Step.name)) =
      jobs.map (fun job => (job.name, job.steps.map Step.name)) ↔ keys = jobs.map Job.name := by
  have kept : (List.zipWith (keptJob floatText) keys jobs).map
      (fun job => (job.name, job.steps.map Step.name)) =
        List.zipWith (fun key job => (key, job.steps.map Step.name)) keys jobs := by
    rw [List.map_zipWith]
    simp only [keptJob, List.map_map, Function.comp_def, name_keptStep]
  rw [kept]
  exact zipWith_eq_map_iff (fun _ _ _ same => congrArg Prod.fst same) Job.name lengths

theorem map_outline_keptStages_iff {keys : List String} {stages : List Stage}
    (lengths : keys.length = (stages.flatMap Stage.jobs).length) :
    (keptStages floatText keys stages).map Stage.outline = stages.map Stage.outline ↔
      keys = (stages.flatMap Stage.jobs).map Job.name := by
  induction stages generalizing keys with
  | nil =>
    have none : keys = [] := List.eq_nil_of_length_eq_zero lengths
    simp [keptStages, none]
  | cons stage stages ih =>
    rw [List.flatMap_cons, List.length_append] at lengths
    have own : (keys.take stage.jobs.length).length = stage.jobs.length :=
      List.length_take_of_le (by omega)
    have first : (Stage.mk stage.name (List.zipWith (keptJob floatText)
        (keys.take stage.jobs.length) stage.jobs)).outline = stage.outline ↔
          keys.take stage.jobs.length = stage.jobs.map Job.name := by
      rw [← map_names_zipWith_keptJob_iff floatText own]
      simp only [Stage.outline, Prod.mk.injEq, true_and]
    rw [keptStages, List.map_cons, List.map_cons, List.cons.injEq, first,
      ih (by rw [List.length_drop]; omega), List.flatMap_cons, List.map_append]
    constructor
    · rintro ⟨taken, left⟩
      rw [← taken, ← left, List.take_append_drop]
    · rintro rfl
      exact ⟨List.take_left' (List.length_map _), List.drop_left' (List.length_map _)⟩

/-- Only names of jobs that are repeated or reserved change. -/
theorem outline_read_write_iff (settings : BambooSettings) (pipeline : Pipeline) :
    (read (.ofData floatText (write settings pipeline))).outline = pipeline.outline ↔
      ((allJobs pipeline).map Job.name).Nodup ∧
        ∀ job ∈ allJobs pipeline, job.name ∉ reservedKeys := by
  rw [read_write]
  refine (map_outline_keptStages_iff (length_jobKeys pipeline)).trans ?_
  refine Keys.allocateAll_eq_self_iff.trans (and_congr_right fun _ => ?_)
  exact List.forall_mem_map

theorem map_stepNames_keptStages {keys : List String} {stages : List Stage}
    (lengths : keys.length = (stages.flatMap Stage.jobs).length) :
    (keptStages floatText keys stages).map Stage.stepNames = stages.map Stage.stepNames := by
  induction stages generalizing keys with
  | nil => rfl
  | cons stage stages ih =>
    rw [List.flatMap_cons, List.length_append] at lengths
    have own : (keys.take stage.jobs.length).length = stage.jobs.length :=
      List.length_take_of_le (by omega)
    have names (key : String) (job : Job) :
        (keptJob floatText key job).steps.map Step.name = job.steps.map Step.name := by
      simp [keptJob, Function.comp_def]
    have first : (Stage.mk stage.name (List.zipWith (keptJob floatText)
        (keys.take stage.jobs.length) stage.jobs)).stepNames = stage.stepNames := by
      rw [Stage.stepNames_eq_flatten, Stage.stepNames_eq_flatten]
      exact congrArg List.flatten
        (map_zipWith_right (g := fun job : Job => job.steps.map Step.name) names own)
    rw [keptStages, List.map_cons, List.map_cons, first, ih (by rw [List.length_drop]; omega)]

theorem map_stepNames_read_write (settings : BambooSettings) (pipeline : Pipeline) :
    (read (.ofData floatText (write settings pipeline))).stages.map Stage.stepNames =
      pipeline.stages.map Stage.stepNames := by
  rw [read_write]
  exact map_stepNames_keptStages (length_jobKeys pipeline)

/-- What was read back has names that can be keys. -/
theorem fits_read_write (settings : BambooSettings) (pipeline : Pipeline) :
    let jobs := allJobs (read (.ofData floatText (write settings pipeline)))
    (jobs.map Job.name).Nodup ∧ ∀ job ∈ jobs, job.name ∉ reservedKeys := by
  intro jobs
  have names : jobs.map Job.name = jobKeys pipeline := by
    simp only [jobs, read_write, allJobs, flatMap_jobs_keptStages (length_jobKeys pipeline)]
    exact names_zipWith_keptJob (length_jobKeys pipeline)
  refine ⟨names ▸ nodup_jobKeys pipeline, fun job mem => ?_⟩
  have key : job.name ∈ jobKeys pipeline := names ▸ List.mem_map.mpr ⟨job, mem, rfl⟩
  exact not_mem_reservedKeys key

/-- **Specs are read back exactly.** All stages come back in their places with their names and
as many jobs as before. The jobs have as names the keys under which they are defined, which
are distinct and none of the reserved ones, and hold their own steps, without conditions. What
was read back is not changed by another pass, whatever the settings. -/
theorem specs_round_trip (settings later : BambooSettings) (pipeline : Pipeline) :
    let restored := read (.ofYaml (write settings pipeline))
    let keys := (Keys.allocateAll ((allJobs pipeline).map Job.name) (.reserving reservedKeys)).1
    restored.variant = .bamboo ∧
      restored.stageNames = pipeline.stageNames ∧
      restored.stages.map (·.jobs.length) = pipeline.stages.map (·.jobs.length) ∧
      (allJobs restored).map Job.name = keys ∧ keys.Nodup ∧ (∀ key ∈ keys, key ∉ reservedKeys) ∧
      (allJobs restored).map Job.steps = (allJobs pipeline).map (fun job =>
        job.steps.map fun step => { step.rendered Yaml.doubles.write with condition := none }) ∧
      read (.ofYaml (write later restored)) = restored := by
  intro restored keys
  have shape : restored =
      ⟨.bamboo, keptStages Yaml.doubles.write (jobKeys pipeline) pipeline.stages⟩ :=
    read_write settings pipeline
  have lengths := length_jobKeys pipeline
  have jobs : allJobs restored =
      List.zipWith (keptJob Yaml.doubles.write) (jobKeys pipeline) (allJobs pipeline) := by
    rw [shape]
    exact flatMap_jobs_keptStages lengths
  refine ⟨by rw [shape], ?_, ?_, ?_, nodup_jobKeys pipeline,
    fun key => not_mem_reservedKeys, ?_, ?_⟩
  · rw [shape]
    exact map_name_keptStages _ _
  · rw [shape]
    exact map_length_keptStages lengths
  · rw [jobs]
    exact names_zipWith_keptJob lengths
  · rw [jobs]
    have own (key : String) (job : Job) : (keptJob Yaml.doubles.write key job).steps =
        job.steps.map (keptStep Yaml.doubles.write) := rfl
    exact map_zipWith_right own lengths
  · rw [shape, Node.ofYaml, read_write, jobKeys_keptStages, keptStages_keptStages lengths]

end CiTranslate.Bamboo

import CiTranslate.Provider.GitHub
import CiTranslate.Proofs.Identifier
import CiTranslate.Proofs.InputValue
import CiTranslate.Proofs.Pipeline.Outline
import CiTranslate.Proofs.Zip

/-!
GitHub Actions workflows that were written are read back.
-/

namespace CiTranslate.GitHub

variable {floatText : Float → String}

/-! ### Steps -/

theorem readStep_writeStep (step : Step) :
    readStep (.ofData floatText (writeStep step)) = step.rendered floatText := by
  obtain ⟨node, written⟩ : ∃ node, node = Node.ofData floatText (writeStep step) := ⟨_, rfl⟩
  have condition : node.textAt? "if" = step.condition := by
    cases script : step.command? <;>
      simp [written, writeStep, script, Node.textAt?, Fields.get?_cons]
  cases script : step.command? with
  | some command =>
    have name : node.firstTextAt? ["name", "id"] =
        if step.name = command then none else some step.name := by
      split <;> simp [*, writeStep, Node.firstTextAt?_pair, Node.textAt?, Fields.get?_cons]
    have run : node.textAt? "run" = some command := by
      simp [written, writeStep, script, Node.textAt?, Fields.get?_cons]
    have same :
        (if step.name = command then none else some step.name).getD command = step.name := by
      split <;> simp [*]
    simp only [← written, readStep, run, name, condition, same, Step.rendered_of_command script]
  | none =>
    have name : node.firstTextAt? ["name", "id"] =
        if step.name = step.task then none else some step.name := by
      split <;> simp [*, writeStep, Node.firstTextAt?_pair, Node.textAt?, Fields.get?_cons]
    have run : node.textAt? "run" = none := by
      simp [written, writeStep, script, Node.textAt?, Fields.get?_cons]
    have uses : node.textAt? "uses" = some step.task := by
      simp [written, writeStep, script, Node.textAt?, Fields.get?_cons]
    have inputs : Inputs.ofNodeAt "with" node = step.inputs.rendered floatText :=
      Inputs.ofNodeAt_toData? _ (by simp [written, writeStep, script, Fields.get?_cons])
    have same : ((if step.name = step.task then none else some step.name).or (some step.task)).getD
        unnamed.step = step.name := by
      split <;> simp [*]
    simp only [← written, readStep, run, name, uses, condition, inputs, same, Option.getD_some,
      Step.rendered_of_none script]

/-! ### Stages -/

/-- The stage that a stage is read back as. -/
def readBack (floatText : Float → String) (key : String) (stage : Stage) : Stage where
  name := key
  jobs := [{ name := jobName stage, steps := stage.steps.map (Step.rendered floatText) }]

@[simp] theorem name_readBack (key : String) (stage : Stage) :
    (readBack floatText key stage).name = key := rfl

@[simp] theorem jobName_readBack (key : String) (stage : Stage) :
    jobName (readBack floatText key stage) = jobName stage := rfl

@[simp] theorem steps_readBack (key : String) (stage : Stage) :
    (readBack floatText key stage).steps = stage.steps.map (Step.rendered floatText) := by
  simp [readBack, Stage.steps]

/-- A stage that is read back twice is the same as one that is read back once. -/
theorem readBack_readBack (key : String) (stage : Stage) :
    readBack floatText key (readBack floatText key stage) = readBack floatText key stage := by
  rw [readBack, jobName_readBack, steps_readBack, List.map_map]
  simp only [readBack, Function.comp_def, Step.rendered_rendered]

theorem readStage_writeStage (settings : GitHubSettings) (key : String) (stage : Stage) :
    let node := Node.ofData floatText (writeStage settings stage)
    readStage key (node.textAtD "name" key) node = readBack floatText key stage := by
  intro node
  have name : node.textAtD "name" key = jobName stage := by
    simp [node, writeStage, Node.textAtD, Node.textAt?, Fields.get?_cons]
  have steps : node.itemsAt "steps" = stage.steps.map (Node.ofData floatText ∘ writeStep) := by
    simp [node, writeStage, Node.itemsAt, Fields.get?_cons]
  simp only [readStage, readBack, name, steps, List.map_map, Function.comp_def, readStep_writeStep]

/-! ### Workflows -/

theorem nodup_jobKeys (pipeline : Pipeline) : (jobKeys pipeline).Nodup :=
  Keys.nodup_allocateAll _ _

@[simp] theorem length_jobKeys (pipeline : Pipeline) :
    (jobKeys pipeline).length = pipeline.stages.length := by
  simp [jobKeys, Pipeline.stageNames]

/-- A workflow is read back stage by stage, each under the key of its job. -/
theorem read_write (settings : GitHubSettings) (pipeline : Pipeline) :
    read (.ofData floatText (write settings pipeline)) =
      { variant := .gitHubActions
        stages := List.zipWith (readBack floatText) (jobKeys pipeline) pipeline.stages } := by
  have jobs : (Node.ofData floatText (write settings pipeline)).get? "jobs" =
      some (.mapping ((jobKeys pipeline).zip
        (pipeline.stages.map (Node.ofData floatText ∘ writeStage settings)))) := by
    have lengths : (jobKeys pipeline).length =
        (pipeline.stages.map (writeStage settings)).length := by simp
    simp [write, Fields.get?_cons, Node.ofData_record_zip (nodup_jobKeys pipeline) lengths]
  simp only [read, jobs, List.map_zip_eq_zipWith, List.zipWith_map_right]
  refine congrArg (Pipeline.mk _) (congrArg (fun f => List.zipWith f _ _) ?_)
  funext key stage
  exact readStage_writeStage settings key stage

/-- What was read back has the keys as the names of its stages. -/
theorem names_zipWith_readBack {keys : List String} {stages : List Stage}
    (lengths : keys.length = stages.length) :
    (List.zipWith (readBack floatText) keys stages).map Stage.name = keys := by
  have own (key : String) (stage : Stage) : (readBack floatText key stage).name = id key := rfl
  rw [map_zipWith_left own lengths, List.map_id]

/-- The keys of what was read back are the keys that it has already. -/
theorem jobKeys_readBack (pipeline : Pipeline) (variant : Variant) :
    jobKeys ⟨variant, List.zipWith (readBack floatText) (jobKeys pipeline) pipeline.stages⟩ =
      jobKeys pipeline := by
  have identifiers : (jobKeys pipeline).map (identifier true) = jobKeys pipeline :=
    (List.map_congr_left fun key mem =>
      identifier_eq_self (isIdentifier_of_mem_allocateAll mem)).trans (List.map_id _)
  rw [jobKeys, Pipeline.stageNames, names_zipWith_readBack (length_jobKeys pipeline), identifiers]
  exact Keys.allocateAll_eq_self (nodup_jobKeys pipeline) fun key _ taken => nomatch taken

/-! ### Names -/

/-- Every stage of a workflow is one job. -/
theorem exists_job_of_read {document : Node} {stage : Stage}
    (mem : stage ∈ (read document).stages) : ∃ job, stage.jobs = [job] := by
  simp only [read] at mem
  split at mem
  · obtain ⟨entry, -, rfl⟩ := List.mem_map.mp mem
    exact ⟨_, rfl⟩
  · obtain ⟨node, -, rfl⟩ := List.mem_map.mp mem
    exact ⟨_, rfl⟩
  · cases mem

theorem outline_of_job {stage : Stage} {job : Job} (only : stage.jobs = [job]) :
    stage.outline = (stage.name, [(jobName stage, stage.stepNames)]) := by
  simp [Stage.outline, Stage.stepNames, Stage.steps, jobName, only]

/-- Names can be the keys of jobs if they are distinct identifiers. -/
theorem jobKeys_eq_stageNames_iff {pipeline : Pipeline} :
    jobKeys pipeline = pipeline.stageNames ↔
      pipeline.stageNames.Nodup ∧ ∀ name ∈ pipeline.stageNames, identifier true name = name := by
  constructor
  · intro same
    refine ⟨same ▸ nodup_jobKeys pipeline, fun name mem => identifier_eq_self ?_⟩
    rw [← same] at mem
    exact isIdentifier_of_mem_allocateAll mem
  · rintro ⟨distinct, identifiers⟩
    have bases : pipeline.stageNames.map (identifier true) = pipeline.stageNames :=
      (List.map_congr_left identifiers).trans (List.map_id _)
    rw [jobKeys, bases]
    exact Keys.allocateAll_eq_self distinct fun key _ taken => nomatch taken

/-- Where every stage is one job, only the names of stages may change. -/
theorem outline_read_write_iff (settings : GitHubSettings) {pipeline : Pipeline}
    (single : ∀ stage ∈ pipeline.stages, ∃ job, stage.jobs = [job]) :
    (read (.ofData floatText (write settings pipeline))).outline = pipeline.outline ↔
      pipeline.stageNames.Nodup ∧ ∀ name ∈ pipeline.stageNames, identifier true name = name := by
  have before : pipeline.outline =
      pipeline.stages.map fun stage => (stage.name, [(jobName stage, stage.stepNames)]) := by
    refine List.map_congr_left fun stage mem => ?_
    obtain ⟨job, only⟩ := single stage mem
    exact outline_of_job only
  have after : (read (.ofData floatText (write settings pipeline))).outline =
      List.zipWith (fun key stage => (key, [(jobName stage, stage.stepNames)]))
        (jobKeys pipeline) pipeline.stages := by
    rw [read_write, Pipeline.outline_eq_map, List.map_zipWith]
    refine congrArg (fun f => List.zipWith f _ _) ?_
    funext key stage
    simp [Stage.outline, readBack, Stage.stepNames, Function.comp_def]
  rw [after, before, ← jobKeys_eq_stageNames_iff]
  exact zipWith_eq_map_iff (fun _ _ _ same => congrArg Prod.fst same) Stage.name
    (length_jobKeys pipeline)

theorem map_stepNames_read_write (settings : GitHubSettings) (pipeline : Pipeline) :
    (read (.ofData floatText (write settings pipeline))).stages.map Stage.stepNames =
      pipeline.stages.map Stage.stepNames := by
  have own (key : String) (stage : Stage) :
      (readBack floatText key stage).stepNames = stage.stepNames := by
    simp [Stage.stepNames, Function.comp_def]
  rw [read_write]
  exact map_zipWith_right own (length_jobKeys pipeline)

/-- What was read back has names that can be keys. -/
theorem fits_read_write (settings : GitHubSettings) (pipeline : Pipeline) :
    let restored := read (.ofData floatText (write settings pipeline))
    restored.stageNames.Nodup ∧ ∀ name ∈ restored.stageNames, identifier true name = name := by
  intro restored
  have names : restored.stageNames = jobKeys pipeline := by
    simp only [restored, read_write]
    exact names_zipWith_readBack (length_jobKeys pipeline)
  rw [names]
  exact ⟨nodup_jobKeys pipeline,
    fun name mem => identifier_eq_self (isIdentifier_of_mem_allocateAll mem)⟩

/-- **Workflows are read back exactly.** Every stage comes back in its place as one job with
all its steps: the stage under the key of that job, an identifier made from its name, and the
job under the name of the only job the stage had, or else under the name of the stage. What was
read back is not changed by another pass, whatever the settings. -/
theorem workflow_round_trip (settings later : GitHubSettings) (pipeline : Pipeline) :
    let restored := read (.ofYaml (write settings pipeline))
    restored.variant = .gitHubActions ∧
      restored.stageNames = (Keys.allocateAll (pipeline.stageNames.map (identifier true)) {}).1 ∧
      restored.stages.map Stage.jobs = pipeline.stages.map (fun stage =>
        [{ name := match stage.jobs with
            | [job] => job.name
            | _ => stage.name
           steps := stage.steps.map (Step.rendered Yaml.doubles.write) }]) ∧
      read (.ofYaml (write later restored)) = restored := by
  intro restored
  have shape : restored = ⟨.gitHubActions,
      List.zipWith (readBack Yaml.doubles.write) (jobKeys pipeline) pipeline.stages⟩ :=
    read_write settings pipeline
  have lengths := length_jobKeys pipeline
  refine ⟨by rw [shape], ?_, ?_, ?_⟩
  · rw [shape]
    exact names_zipWith_readBack lengths
  · rw [shape]
    have own (key : String) (stage : Stage) : (readBack Yaml.doubles.write key stage).jobs =
        [{ name := jobName stage, steps := stage.steps.map (Step.rendered Yaml.doubles.write) }] :=
      rfl
    exact map_zipWith_right own lengths
  · rw [shape, Node.ofYaml, read_write, jobKeys_readBack, zipWith_zipWith_self readBack_readBack]

end CiTranslate.GitHub

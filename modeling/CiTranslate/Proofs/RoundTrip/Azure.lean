import CiTranslate.Provider.Azure
import CiTranslate.Proofs.InputValue
import CiTranslate.Proofs.Pipeline.Outline

/-!
Azure Pipelines documents that were written are read back, in both layouts.

With stages, every job comes back in its place. Without them, a stage comes back as the one job
that holds the steps of all its jobs. The two layouts therefore agree on the stages and on the
steps of each (`layouts_round_trip`).
-/

namespace CiTranslate.Azure

variable {floatText : Float → String}

/-! ### Steps -/

/-- No task is written under a key that holds a shell command. -/
theorem readStep_writeStep (step : Step) :
    readStep (.ofData floatText (writeStep step)) = step.rendered floatText := by
  obtain ⟨node, written⟩ : ∃ node, node = Node.ofData floatText (writeStep step) := ⟨_, rfl⟩
  have condition : node.textAt? "condition" = step.condition := by
    cases script : step.command? <;>
      simp [written, writeStep, script, Node.textAt?, Fields.get?_cons]
  cases script : step.command? with
  | some command =>
    have name : node.firstTextAt? ["displayName", "name"] =
        if step.name = command then none else some step.name := by
      split <;> simp [*, writeStep, Node.firstTextAt?_pair, Node.textAt?, Fields.get?_cons]
    have run : node.firstTextAt? commandKeys = some command := by
      simp [written, writeStep, script, commandKeys, Node.firstTextAt?_cons, Node.textAt?,
        Fields.get?_cons]
    have same :
        (if step.name = command then none else some step.name).getD command = step.name := by
      split <;> simp [*]
    simp only [← written, readStep, run, name, condition, same, Step.rendered_of_command script]
  | none =>
    have name : node.firstTextAt? ["displayName", "name"] = some step.name := by
      simp [written, writeStep, script, Node.firstTextAt?_pair, Node.textAt?, Fields.get?_cons]
    have run : node.firstTextAt? commandKeys = none := by
      simp [written, writeStep, script, commandKeys, Node.firstTextAt?_cons, Node.textAt?,
        Fields.get?_cons]
    have task : node.textAtD "task" unnamed.task = step.task := by
      simp [written, writeStep, script, Node.textAtD, Node.textAt?, Fields.get?_cons]
    have inputs : Inputs.ofNodeAt "inputs" node = step.inputs.rendered floatText :=
      Inputs.ofNodeAt_toData? _ (by simp [written, writeStep, script, Fields.get?_cons])
    simp only [← written, readStep, run, name, task, condition, inputs, Option.getD_some,
      Step.rendered_of_none script]

/-! ### Jobs and stages -/

theorem readJob_writeJob (name : String) (steps : List Step) :
    readJob (.ofData floatText (writeJob name steps)) =
      { name, steps := steps.map (Step.rendered floatText) } := by
  obtain ⟨node, written⟩ : ∃ node, node = Node.ofData floatText (writeJob name steps) := ⟨_, rfl⟩
  have display : node.firstTextAt? ["displayName", "job", "deployment"] = some name := by
    simp [written, writeJob, Node.firstTextAt?_cons, Node.textAt?, Fields.get?_cons]
  have items : node.itemsAt "steps" = steps.map (Node.ofData floatText ∘ writeStep) := by
    simp [written, writeJob, Node.itemsAt, Fields.get?_cons]
  simp only [← written, readJob, display, items, Option.getD_some, List.map_map, Function.comp_def,
    readStep_writeStep]

/-- The stage that a stage is read back as. -/
def readBack (floatText : Float → String) : AzureLayout → Stage → Stage
  | .stages, stage =>
    { name := stage.name
      jobs := stage.jobs.map fun job =>
        { name := job.name, steps := job.steps.map (Step.rendered floatText) } }
  | .jobs, stage =>
    stageOfJob { name := stage.name, steps := stage.steps.map (Step.rendered floatText) }

@[simp] theorem name_readBack (layout : AzureLayout) (stage : Stage) :
    (readBack floatText layout stage).name = stage.name := by
  cases layout <;> rfl

/-- Both layouts keep all steps of a stage in their order. -/
@[simp] theorem steps_readBack (layout : AzureLayout) (stage : Stage) :
    (readBack floatText layout stage).steps = stage.steps.map (Step.rendered floatText) := by
  cases layout with
  | stages => simp [readBack, Stage.steps, List.flatMap_map, List.map_flatMap]
  | jobs => simp [readBack, stageOfJob, Stage.steps]

/-- A stage that is read back twice is the same as one that is read back once. -/
theorem readBack_readBack (layout : AzureLayout) (stage : Stage) :
    readBack floatText layout (readBack floatText layout stage) =
      readBack floatText layout stage := by
  cases layout with
  | stages =>
    simp only [readBack, List.map_map, Function.comp_def, Step.rendered_rendered]
  | jobs =>
    have again : (stage.steps.map (Step.rendered floatText)).map (Step.rendered floatText) =
        stage.steps.map (Step.rendered floatText) := by
      simp only [List.map_map, Function.comp_def, Step.rendered_rendered]
    rw [readBack, name_readBack, steps_readBack, again, readBack]

theorem readStage_writeStage (stage : Stage) :
    readStage (.ofData floatText (writeStage stage)) = readBack floatText .stages stage := by
  obtain ⟨node, written⟩ : ∃ node, node = Node.ofData floatText (writeStage stage) := ⟨_, rfl⟩
  have name : node.textAtD "stage" unnamed.stage = stage.name := by
    simp [written, writeStage, Node.textAtD, Node.textAt?, Fields.get?_cons]
  have items : node.itemsAt "jobs" = stage.jobs.map
      (Node.ofData floatText ∘ fun job => writeJob job.name job.steps) := by
    simp [written, writeStage, Node.itemsAt, Fields.get?_cons]
  simp only [← written, readStage, readBack, name, items, List.map_map, Function.comp_def,
    readJob_writeJob]

/-! ### Documents -/

/-- A document is read back stage by stage. One without stages has no jobs either, so that
nothing is read from it. -/
theorem read_write (settings : AzureSettings) (pipeline : Pipeline) :
    read (.ofData floatText (write settings pipeline)) =
      { variant := .azureDevOps
        stages := pipeline.stages.map (readBack floatText settings.layout) } := by
  obtain ⟨document, written⟩ :
      ∃ document, document = Node.ofData floatText (write settings pipeline) := ⟨_, rfl⟩
  rw [← written, read]
  refine congrArg (Pipeline.mk _) ?_
  cases layout : settings.layout with
  | stages =>
    have stages : document.itemsAt "stages" =
        pipeline.stages.map (Node.ofData floatText ∘ writeStage) := by
      simp [written, write, layout, Node.itemsAt, Fields.get?_cons]
    have jobs : document.itemsAt "jobs" = [] := by
      simp [written, write, layout, Node.itemsAt, Node.items, Fields.get?_cons]
    have all : (pipeline.stages.map (Node.ofData floatText ∘ writeStage)).map readStage =
        pipeline.stages.map (readBack floatText .stages) := by
      simp only [List.map_map, Function.comp_def, readStage_writeStage]
    rw [stages, jobs, ← all]
    cases pipeline.stages <;> rfl
  | jobs =>
    have stages : document.itemsAt "stages" = [] := by
      simp [written, write, layout, Node.itemsAt, Node.items, Fields.get?_cons]
    have jobs : document.itemsAt "jobs" = pipeline.stages.map
        (Node.ofData floatText ∘ fun stage => writeJob stage.name stage.steps) := by
      simp [written, write, layout, Node.itemsAt, Fields.get?_cons]
    simp only [stages, jobs, List.map_map, Function.comp_def, readJob_writeJob]
    rfl

/-- What was read back is not changed by another pass in the same layout. -/
theorem read_write_readBack (settings : AzureSettings) (variant : Variant) (stages : List Stage) :
    read (.ofData floatText
        (write settings ⟨variant, stages.map (readBack floatText settings.layout)⟩)) =
      ⟨.azureDevOps, stages.map (readBack floatText settings.layout)⟩ := by
  rw [read_write]
  simp only [List.map_map, Function.comp_def, readBack_readBack]

/-- With stages, no name is changed. -/
theorem outline_read_write {settings : AzureSettings} (staged : settings.layout = .stages)
    (pipeline : Pipeline) :
    (read (.ofData floatText (write settings pipeline))).outline = pipeline.outline := by
  simp [read_write, staged, Pipeline.outline, readBack, Function.comp_def]

theorem map_stepNames_read_write (settings : AzureSettings) (pipeline : Pipeline) :
    (read (.ofData floatText (write settings pipeline))).stages.map Stage.stepNames =
      pipeline.stages.map Stage.stepNames := by
  simp [read_write, Stage.stepNames, Function.comp_def]

/-- **Both layouts are read back, to the same stages and steps.** With stages, all stages and
jobs come back in their places with their names and steps. Without them, every stage comes back
with one job of its name that holds the steps of all its jobs. What was read back is not changed
by another pass in the same layout, whatever the branch. -/
theorem layouts_round_trip (branch later : String) (pipeline : Pipeline) :
    let staged := read (.ofYaml (write { layout := .stages, branch } pipeline))
    let joined := read (.ofYaml (write { layout := .jobs, branch } pipeline))
    staged = {
      variant := .azureDevOps
      stages := pipeline.stages.map fun stage =>
        { name := stage.name
          jobs := stage.jobs.map fun job =>
            { name := job.name
              steps := job.steps.map (Step.rendered Yaml.doubles.write) } } } ∧
    joined = {
      variant := .azureDevOps
      stages := pipeline.stages.map fun stage =>
        { name := stage.name
          jobs := [
            { name := stage.name
              steps := (stage.jobs.flatMap Job.steps).map
                (Step.rendered Yaml.doubles.write) }] } } ∧
    staged.stageNames = joined.stageNames ∧
    staged.stages.map Stage.steps = joined.stages.map Stage.steps ∧
    read (.ofYaml (write { layout := .stages, branch := later } staged)) = staged ∧
    read (.ofYaml (write { layout := .jobs, branch := later } joined)) = joined := by
  intro staged joined
  have staged_eq : staged =
      ⟨.azureDevOps, pipeline.stages.map (readBack Yaml.doubles.write .stages)⟩ :=
    read_write { layout := .stages, branch } pipeline
  have joined_eq : joined =
      ⟨.azureDevOps, pipeline.stages.map (readBack Yaml.doubles.write .jobs)⟩ :=
    read_write { layout := .jobs, branch } pipeline
  refine ⟨staged_eq, joined_eq, ?_, ?_, ?_, ?_⟩
  · simp only [staged_eq, joined_eq, Pipeline.stageNames, List.map_map, Function.comp_def,
      name_readBack]
  · simp only [staged_eq, joined_eq, List.map_map, Function.comp_def, steps_readBack]
  · rw [staged_eq]
    exact read_write_readBack { layout := .stages, branch := later } _ _
  · rw [joined_eq]
    exact read_write_readBack { layout := .jobs, branch := later } _ _

end CiTranslate.Azure

import CiTranslate.Provider.CircleCi
import CiTranslate.Proofs.InputValue
import CiTranslate.Proofs.Keys
import CiTranslate.Proofs.Pipeline.Outline
import CiTranslate.Proofs.Zip

/-!
CircleCI configurations that were written are read back.

The name of a step stands among its parameters, and the task is the key by which a shell command
is told apart. A parameter `name` therefore comes back as the name of its step, and a task `run`
with parameters as a shell command (`readStep_writeStep`). What comes back has neither, so that
the next pass leaves it alone (`keptStep_keptStep`).
-/

namespace CiTranslate.CircleCi

variable {floatText : Float → String}

/-! ### Parameters -/

theorem nodup_names_parameters (step : Step) : ((parameters step).map Prod.fst).Nodup :=
  Fields.nodup_names_ofList _

/-- The parameters with the name of the step in front, before they are put together. -/
theorem parameters_eq (step : Step) :
    parameters step =
      (Fields.mapValues inputValue step.inputs.fields).foldl
        (fun fields pair => Fields.put pair.1 pair.2 fields)
        (if step.name = step.task then [] else [("name", .text step.name)]) := by
  rw [parameters, Fields.ofList, List.foldl_append]
  split <;> rfl

/-- A parameter `name` takes the place of the name of the step. -/
theorem get?_name_parameters (step : Step) :
    Fields.get? "name" (parameters step) =
      ((step.inputs.get? "name").map inputValue).or
        (if step.name = step.task then none else some (.text step.name)) := by
  have distinct : (Fields.names (Fields.mapValues inputValue step.inputs.fields)).Nodup := by
    rw [Fields.names_mapValues]
    exact step.inputs.distinct
  rw [parameters_eq, Fields.get?_foldl_put distinct, Fields.get?_mapValues]
  refine congrArg (Option.or _) ?_
  split <;> rfl

/-- Apart from `name`, the parameters are those of the step. -/
theorem erase_name_parameters (step : Step) :
    Fields.erase "name" (parameters step) =
      Fields.erase "name" (Fields.mapValues inputValue step.inputs.fields) := by
  have distinct : (Fields.names (Fields.mapValues inputValue step.inputs.fields)).Nodup := by
    rw [Fields.names_mapValues]
    exact step.inputs.distinct
  have own : Fields.erase "name"
      (if step.name = step.task then [] else [("name", Data.text step.name)]) =
        Fields.erase "name" [] := by
    split <;> rfl
  have none : (Fields.mapValues inputValue step.inputs.fields).foldl
      (fun fields pair => Fields.put pair.1 pair.2 fields) [] =
        Fields.mapValues inputValue step.inputs.fields :=
    Fields.ofList_eq_self distinct
  rw [parameters_eq, Fields.erase_foldl_put_congr own, none]

/-! ### Steps -/

/-- The task that a step with parameters is read back as. -/
def keptTask (floatText : Float → String) (step : Step) : Step :=
  let inputs := step.inputs.rendered floatText
  { name := (inputs.get? "name").getD step.name
    task := step.task
    inputs := inputs.erase "name" }

/-- The step that a step is read back as. A task `run` is taken for a shell command, unless it
is written as a word. Configurations have no conditions. -/
def keptStep (floatText : Float → String) (step : Step) : Step :=
  match step.command? with
  | some command => .namedScript step.name command
  | none =>
    if step.task = "run" ∧ ¬(step.name = step.task ∧ step.inputs.isEmpty) then
      readRun (.ofData floatText (.record (parameters step)))
    else keptTask floatText step

theorem readTask_parameters (step : Step) :
    readTask step.task (.ofData floatText (.record (parameters step))) =
      keptTask floatText step := by
  obtain ⟨inputs, found⟩ : ∃ inputs, inputs =
      Inputs.ofNode (.ofData floatText (.record (parameters step))) := ⟨_, rfl⟩
  have fields : inputs.fields = Fields.mapValues
      (fun data => (Node.ofData floatText data).inputText) (parameters step) := by
    rw [found, Inputs.fields_ofNode_record floatText (nodup_names_parameters step)]
  have name : (inputs.get? "name").getD step.task =
      ((step.inputs.rendered floatText).get? "name").getD step.name := by
    rw [Inputs.get?, fields, Fields.get?_mapValues, get?_name_parameters, Inputs.get?_rendered]
    cases step.inputs.get? "name" with
    | some value => rfl
    | none =>
      rw [Option.map_none, Option.none_or]
      split
      · next same => exact same.symm
      · rfl
  have others : inputs.erase "name" = (step.inputs.rendered floatText).erase "name" := by
    apply Inputs.eq_of_fields_eq
    calc Fields.erase "name" inputs.fields
        = Fields.mapValues (fun data => (Node.ofData floatText data).inputText)
            (Fields.erase "name" (parameters step)) := by
          rw [fields, Fields.erase_mapValues]
      _ = Fields.erase "name" (Fields.mapValues (fun data => (Node.ofData floatText data).inputText)
            (Fields.mapValues inputValue step.inputs.fields)) := by
          rw [erase_name_parameters, ← Fields.erase_mapValues]
      _ = Fields.erase "name" (step.inputs.rendered floatText).fields := by
          rw [Fields.mapValues_mapValues]
          rfl
  rw [readTask, ← found, keptTask, name, others]

/-- A task without parameters that has no name of its own is its own name. -/
theorem keptTask_of_word {step : Step} (word : step.name = step.task ∧ step.inputs.isEmpty) :
    keptTask floatText step = { name := step.task, task := step.task } := by
  obtain ⟨name, empty⟩ := word
  have none : step.inputs = {} := Inputs.eq_of_fields_eq (List.isEmpty_iff.mp empty)
  rw [keptTask, none, ← name]
  rfl

/-- Each of the four shapes is read back. -/
theorem readStep_writeStep (step : Step) :
    readStep (.ofData floatText (writeStep step)) = keptStep floatText step := by
  cases script : step.command? with
  | some command =>
    rw [keptStep, script]
    by_cases same : step.name = command
    · have shape : Node.ofData floatText (writeStep step) =
          .mapping [("run", .scalar command)] := by
        simp only [writeStep, script, if_pos same]
        exact Node.ofData_record (by simp)
      rw [shape, same]
      rfl
    · have shape : Node.ofData floatText (writeStep step) =
          .mapping [("run", .mapping
            [("name", .scalar step.name), ("command", .scalar command)])] := by
        simp only [writeStep, script, if_neg same]
        rw [Node.ofData_record (by simp)]
        simp [Fields.mapValues, Node.ofData_record]
      rw [shape]
      rfl
  | none =>
    by_cases word : step.name = step.task ∧ step.inputs.isEmpty
    · have shape : Node.ofData floatText (writeStep step) = .scalar step.task := by
        simp only [writeStep, script, if_pos word, Node.ofData_text]
      have noRun : ¬(step.task = "run" ∧ ¬(step.name = step.task ∧ step.inputs.isEmpty)) :=
        fun run => run.2 word
      simp only [keptStep, script, shape, readStep, if_neg noRun, keptTask_of_word word]
    · have shape : Node.ofData floatText (writeStep step) =
          .mapping [(step.task, .ofData floatText (.record (parameters step)))] := by
        simp only [writeStep, script, if_neg word]
        exact Node.ofData_record (by simp)
      simp only [keptStep, script, shape, readStep, word, not_false_eq_true, and_true,
        readTask_parameters]

/-! ### A second pass -/

/-- What is read under `run` is a shell command. -/
theorem exists_readRun (body : Node) :
    ∃ name command, readRun body = .namedScript name command := by
  unfold readRun
  split
  · next command => exact ⟨command, command, rfl⟩
  · split
    · next name _ => exact ⟨name, _, rfl⟩
    · exact ⟨_, _, rfl⟩

theorem keptStep_of_command {step : Step} {command : String}
    (script : step.command? = some command) :
    keptStep floatText step = .namedScript step.name command := by
  simp only [keptStep, script]

theorem keptStep_namedScript (name command : String) :
    keptStep floatText (.namedScript name command) = .namedScript name command :=
  keptStep_of_command (Step.command?_namedScript name command)

/-- Taking out the name leaves a task without a command a task without a command. -/
theorem command?_keptTask {step : Step} (other : step.command? = none) :
    (keptTask floatText step).command? = none := by
  unfold Step.command? at other ⊢
  split at other
  · next task =>
    have differ : Step.scriptInput ≠ "name" := by decide
    have absent : ((step.inputs.rendered floatText).erase "name").get? Step.scriptInput = none := by
      rw [Inputs.get?_erase_of_ne differ, Inputs.get?_rendered, other, Option.map_none]
    rw [keptTask, if_pos task, absent]
  · next task => exact if_neg task

theorem keptTask_keptTask (step : Step) :
    keptTask floatText (keptTask floatText step) = keptTask floatText step := by
  have again : (((step.inputs.rendered floatText).erase "name").rendered floatText).get? "name" =
      none := by
    rw [Inputs.get?_rendered, Inputs.get?_erase_self, Option.map_none]
  have same : (((step.inputs.rendered floatText).erase "name").rendered floatText).erase "name" =
      (step.inputs.rendered floatText).erase "name" := by
    rw [Inputs.erase_eq_self again, Inputs.rendered_erase, Inputs.rendered_rendered]
  simp only [keptTask, again, Option.getD_none, same]

/-- A step that is read back twice is the same as one that is read back once. -/
@[simp] theorem keptStep_keptStep (step : Step) :
    keptStep floatText (keptStep floatText step) = keptStep floatText step := by
  cases script : step.command? with
  | some command => rw [keptStep_of_command script, keptStep_namedScript]
  | none =>
    by_cases run : step.task = "run" ∧ ¬(step.name = step.task ∧ step.inputs.isEmpty)
    · obtain ⟨name, command, body⟩ :=
        exists_readRun (.ofData floatText (.record (parameters step)))
      have kept : keptStep floatText step = .namedScript name command := by
        simp only [keptStep, script, if_pos run, body]
      rw [kept, keptStep_namedScript]
    · have kept : keptStep floatText step = keptTask floatText step := by
        simp only [keptStep, script, if_neg run]
      have later : ¬((keptTask floatText step).task = "run" ∧
          ¬((keptTask floatText step).name = (keptTask floatText step).task ∧
            (keptTask floatText step).inputs.isEmpty)) := by
        rintro ⟨task, noWord⟩
        have word : step.name = step.task ∧ step.inputs.isEmpty := by
          by_contra none
          exact run ⟨task, none⟩
        rw [keptTask_of_word word] at noWord
        exact noWord ⟨rfl, rfl⟩
      rw [kept, keptStep, command?_keptTask script]
      simp only [if_neg later, keptTask_keptTask]

/-! ### Steps that lose nothing -/

/-- The step that was read back has the name, the task and the parameters of the written one,
each value as text. -/
def Lossless (floatText : Float → String) (step restored : Step) : Prop :=
  restored.name = step.name ∧ restored.task = step.task ∧
    restored.inputs.fields = step.inputs.fields.map fun (key, value) =>
      (key, (Node.ofData floatText (inputValue value)).inputText)

theorem lossless_keptTask_iff {step : Step} :
    Lossless floatText step (keptTask floatText step) ↔ step.inputs.get? "name" = none := by
  have rendered : step.inputs.fields.map (fun (key, value) =>
      (key, (Node.ofData floatText (inputValue value)).inputText)) =
        (step.inputs.rendered floatText).fields := rfl
  constructor
  · rintro ⟨-, -, inputs⟩
    rw [rendered] at inputs
    have same : (step.inputs.rendered floatText).erase "name" = step.inputs.rendered floatText :=
      Inputs.eq_of_fields_eq inputs
    have absent : (step.inputs.rendered floatText).get? "name" = none := by
      rw [← same]
      exact Inputs.get?_erase_self "name" _
    rwa [Inputs.get?_rendered, Option.map_eq_none_iff] at absent
  · intro absent
    have none : (step.inputs.rendered floatText).get? "name" = none := by
      rw [Inputs.get?_rendered, absent, Option.map_none]
    refine ⟨?_, rfl, ?_⟩
    · rw [keptTask, none, Option.getD_none]
    · rw [rendered, keptTask, Inputs.erase_eq_self none]

/-- **A task is read back without loss exactly when no parameter is called `name`, and it is not
called `run`**, save as a word of its own. For any other step a parameter `name` overwrites the
name of the step, or the parameters of `run` are taken for a shell command. -/
theorem lossless_readStep_writeStep_iff (step : Step) (other : step.command? = none) :
    Lossless Yaml.doubles.write step (readStep (.ofYaml (writeStep step))) ↔
      step.inputs.get? "name" = none ∧
        (step.task = "run" → step.name = step.task ∧ step.inputs.isEmpty) := by
  rw [Node.ofYaml, readStep_writeStep]
  by_cases run : step.task = "run" ∧ ¬(step.name = step.task ∧ step.inputs.isEmpty)
  · obtain ⟨name, command, body⟩ :=
      exists_readRun (.ofData Yaml.doubles.write (.record (parameters step)))
    have kept : keptStep Yaml.doubles.write step = .namedScript name command := by
      simp only [keptStep, other, if_pos run, body]
    constructor
    · rintro ⟨-, task, -⟩
      rw [kept, run.1] at task
      exact absurd task (show Step.scriptTask ≠ "run" by decide)
    · rintro ⟨-, word⟩
      exact absurd (word run.1) run.2
  · have kept : keptStep Yaml.doubles.write step = keptTask Yaml.doubles.write step := by
      simp only [keptStep, other, if_neg run]
    have word : step.task = "run" → step.name = step.task ∧ step.inputs.isEmpty := by
      intro task
      by_contra none
      exact run ⟨task, none⟩
    rw [kept, lossless_keptTask_iff]
    exact ⟨fun absent => ⟨absent, word⟩, And.left⟩

/-- A checkout into a directory keeps its name and its parameter. -/
theorem lossless_readStep_writeStep_iff_checkout :
    let step : Step := { name := "fetch", task := "checkout", inputs := .ofList [("path", "src")] }
    step.command? = none ∧ Lossless Yaml.doubles.write step (readStep (.ofYaml (writeStep step))) :=
  ⟨by decide, (lossless_readStep_writeStep_iff _ (by decide)).mpr (by decide)⟩

/-- A parameter `name` is lost to the name of the step, and a task `run` to a shell command. -/
theorem not_lossless_readStep_writeStep :
    let named : Step := { name := "n", task := "t", inputs := .ofList [("name", "x")] }
    let run : Step := { name := "n", task := "run", inputs := .ofList [("k", "x")] }
    named.command? = none ∧
      readStep (.ofYaml (writeStep named)) = { name := "x", task := "t" } ∧
      run.command? = none ∧
      readStep (.ofYaml (writeStep run)) = .namedScript "n" "" := by
  refine ⟨by decide, ?_, by decide, ?_⟩ <;>
    rw [Node.ofYaml, readStep_writeStep] <;> decide

/-! ### Configurations -/

theorem nodup_jobKeys (pipeline : Pipeline) : (jobKeys pipeline).Nodup :=
  Keys.nodup_allocateAll _ _

@[simp] theorem length_jobKeys (pipeline : Pipeline) :
    (jobKeys pipeline).length = pipeline.stages.length := by
  simp [jobKeys, Pipeline.stageNames]

/-- The stage that a stage is read back as. -/
def readBack (floatText : Float → String) (key : String) (stage : Stage) : Stage where
  name := key
  jobs := [{ name := key, steps := stage.steps.map (keptStep floatText) }]

@[simp] theorem steps_readBack (key : String) (stage : Stage) :
    (readBack floatText key stage).steps = stage.steps.map (keptStep floatText) := by
  simp [readBack, Stage.steps]

theorem readBack_readBack (key : String) (stage : Stage) :
    readBack floatText key (readBack floatText key stage) = readBack floatText key stage := by
  rw [readBack, steps_readBack, List.map_map]
  simp only [readBack, Function.comp_def, keptStep_keptStep]

theorem readStage_writeStage (settings : CircleCiSettings) (key : String) (stage : Stage) :
    readStage key (.ofData floatText (writeStage settings stage)) =
      readBack floatText key stage := by
  have steps : (Node.ofData floatText (writeStage settings stage)).itemsAt "steps" =
      stage.steps.map (Node.ofData floatText ∘ writeStep) := by
    simp [writeStage, Node.itemsAt, Fields.get?_cons]
  simp only [readStage, readBack, steps, List.map_map, Function.comp_def, readStep_writeStep]

/-- A configuration is read back stage by stage, each under the key of its job. -/
theorem read_write (settings : CircleCiSettings) (pipeline : Pipeline) :
    read (.ofData floatText (write settings pipeline)) =
      { variant := .circleCi
        stages := List.zipWith (readBack floatText) (jobKeys pipeline) pipeline.stages } := by
  have jobs : (Node.ofData floatText (write settings pipeline)).get? "jobs" =
      some (.mapping ((jobKeys pipeline).zip
        (pipeline.stages.map (Node.ofData floatText ∘ writeStage settings)))) := by
    have lengths : (jobKeys pipeline).length =
        (pipeline.stages.map (writeStage settings)).length := by simp
    simp [write, Fields.get?_cons, Node.ofData_record_zip (nodup_jobKeys pipeline) lengths]
  simp only [read, jobs, List.map_zip_eq_zipWith, List.zipWith_map_right]
  refine congrArg (Pipeline.mk _) (congrArg (fun f => List.zipWith f _ _) ?_)
  funext key stage
  exact readStage_writeStage settings key stage

theorem names_zipWith_readBack {keys : List String} {stages : List Stage}
    (lengths : keys.length = stages.length) :
    (List.zipWith (readBack floatText) keys stages).map Stage.name = keys := by
  have own (key : String) (stage : Stage) : (readBack floatText key stage).name = id key := rfl
  rw [map_zipWith_left own lengths, List.map_id]

/-- The keys of what was read back are the keys that it has already. -/
theorem jobKeys_readBack (pipeline : Pipeline) (variant : Variant) :
    jobKeys ⟨variant, List.zipWith (readBack floatText) (jobKeys pipeline) pipeline.stages⟩ =
      jobKeys pipeline := by
  rw [jobKeys, Pipeline.stageNames, names_zipWith_readBack (length_jobKeys pipeline)]
  exact Keys.allocateAll_eq_self (nodup_jobKeys pipeline) fun key _ taken => nomatch taken

/-! ### Names -/

/-- Steps that keep their names: no parameter is the name, and a task `run` has none. -/
def KeepsName (step : Step) : Prop :=
  step.inputs.get? "name" = none ∧ (step.task = "run" → step.inputs.isEmpty)

theorem KeepsName.name_keptStep {step : Step} (keeps : KeepsName step) :
    (keptStep floatText step).name = step.name := by
  obtain ⟨noName, bare⟩ := keeps
  cases script : step.command? with
  | some command => rw [keptStep_of_command script]; rfl
  | none =>
    by_cases run : step.task = "run" ∧ ¬(step.name = step.task ∧ step.inputs.isEmpty)
    · obtain ⟨task, noWord⟩ := run
      have empty := bare task
      have other : step.name ≠ step.task := fun same => noWord ⟨same, empty⟩
      have written : parameters step = [("name", .text step.name)] := by
        rw [parameters, if_neg other, List.isEmpty_iff.mp empty]
        rfl
      simp only [keptStep, script, if_pos (show _ ∧ _ from ⟨task, noWord⟩), written]
      rfl
    · simp only [keptStep, script, if_neg run, keptTask, Inputs.get?_rendered, noName,
        Option.map_none, Option.getD_none]

/-- What is read from a configuration keeps its name. -/
theorem keepsName_readStep (node : Node) : KeepsName (readStep node) := by
  have namedScript (name command : String) : KeepsName (.namedScript name command) :=
    ⟨rfl, fun run => absurd run (show Step.scriptTask ≠ "run" by decide)⟩
  unfold readStep
  split
  · exact ⟨rfl, fun _ => rfl⟩
  · next task body =>
    split
    · obtain ⟨name, command, script⟩ := exists_readRun body
      rw [script]
      exact namedScript name command
    · next other => exact ⟨Inputs.get?_erase_self _ _, fun run => absurd run other⟩
  · exact ⟨rfl, fun _ => rfl⟩

/-- Every stage of a configuration is one job of its name, and its steps keep theirs. -/
theorem outline_of_read {document : Node} {stage : Stage} (mem : stage ∈ (read document).stages) :
    stage.outline = (stage.name, [(stage.name, stage.stepNames)]) ∧
      ∀ step ∈ stage.steps, KeepsName step := by
  obtain ⟨name, node, rfl⟩ : ∃ name node, stage = readStage name node := by
    simp only [read] at mem
    split at mem
    · obtain ⟨entry, -, rfl⟩ := List.mem_map.mp mem
      exact ⟨_, _, rfl⟩
    · obtain ⟨node, -, rfl⟩ := List.mem_map.mp mem
      exact ⟨_, _, rfl⟩
    · cases mem
  constructor
  · simp [Stage.outline, Stage.stepNames, Stage.steps, readStage]
  · intro step own
    simp only [readStage, Stage.steps, List.flatMap_cons, List.flatMap_nil, List.append_nil] at own
    obtain ⟨item, -, rfl⟩ := List.mem_map.mp own
    exact keepsName_readStep item

theorem jobKeys_eq_stageNames_iff {pipeline : Pipeline} :
    jobKeys pipeline = pipeline.stageNames ↔ pipeline.stageNames.Nodup := by
  refine Keys.allocateAll_eq_self_iff.trans ⟨And.left, fun distinct => ⟨distinct, ?_⟩⟩
  exact fun name _ taken => nomatch taken

/-- The names of the steps of a stage after they were read back. -/
def keptNames (floatText : Float → String) (stage : Stage) : List String :=
  stage.steps.map fun step => (keptStep floatText step).name

theorem map_keptNames {stages : List Stage}
    (keeps : ∀ stage ∈ stages, ∀ step ∈ stage.steps, KeepsName step) :
    stages.map (keptNames floatText) = stages.map Stage.stepNames :=
  List.map_congr_left fun stage mem =>
    List.map_congr_left fun step own => (keeps stage mem step own).name_keptStep

theorem stepNames_readBack (key : String) (stage : Stage) :
    (readBack floatText key stage).stepNames = keptNames floatText stage := by
  simp [Stage.stepNames, keptNames, Function.comp_def]

theorem outline_readBack (key : String) (stage : Stage) :
    (readBack floatText key stage).outline = (key, [(key, keptNames floatText stage)]) := by
  simp [Stage.outline, readBack, keptNames, Function.comp_def]

theorem map_stepNames_read_write (settings : CircleCiSettings) {pipeline : Pipeline}
    (keeps : ∀ stage ∈ pipeline.stages, ∀ step ∈ stage.steps, KeepsName step) :
    (read (.ofData floatText (write settings pipeline))).stages.map Stage.stepNames =
      pipeline.stages.map Stage.stepNames := by
  rw [read_write, ← map_keptNames keeps]
  exact map_zipWith_right stepNames_readBack (length_jobKeys pipeline)

/-- Where every stage is one job of its name, only repeated names change. -/
theorem outline_read_write_iff (settings : CircleCiSettings) {pipeline : Pipeline}
    (single : ∀ stage ∈ pipeline.stages,
      stage.outline = (stage.name, [(stage.name, stage.stepNames)]))
    (keeps : ∀ stage ∈ pipeline.stages, ∀ step ∈ stage.steps, KeepsName step) :
    (read (.ofData floatText (write settings pipeline))).outline = pipeline.outline ↔
      pipeline.stageNames.Nodup := by
  have before : pipeline.outline =
      pipeline.stages.map fun stage => (stage.name, [(stage.name, stage.stepNames)]) :=
    List.map_congr_left single
  have after : (read (.ofData floatText (write settings pipeline))).outline =
      List.zipWith (fun key stage => (key, [(key, stage.stepNames)]))
        (jobKeys pipeline) pipeline.stages := by
    calc (read (.ofData floatText (write settings pipeline))).outline
        = List.zipWith (fun key stage => (key, [(key, keptNames floatText stage)]))
            (jobKeys pipeline) pipeline.stages := by
          rw [read_write, Pipeline.outline_eq_map, List.map_zipWith]
          simp only [outline_readBack]
      _ = List.zipWith (fun key names => (key, [(key, names)])) (jobKeys pipeline)
            (pipeline.stages.map (keptNames floatText)) := by
          rw [List.zipWith_map_right]
      _ = List.zipWith (fun key stage => (key, [(key, stage.stepNames)]))
            (jobKeys pipeline) pipeline.stages := by
          rw [map_keptNames keeps, List.zipWith_map_right]
  rw [after, before, ← jobKeys_eq_stageNames_iff]
  exact zipWith_eq_map_iff (fun _ _ _ same => congrArg Prod.fst same) Stage.name
    (length_jobKeys pipeline)

theorem fits_read_write (settings : CircleCiSettings) (pipeline : Pipeline) :
    (read (.ofData floatText (write settings pipeline))).stageNames.Nodup := by
  have names : (read (.ofData floatText (write settings pipeline))).stageNames =
      jobKeys pipeline := by
    rw [read_write]
    exact names_zipWith_readBack (length_jobKeys pipeline)
  rw [names]
  exact nodup_jobKeys pipeline

/-- **One pass settles a configuration.** Every stage comes back in its place as one job with
all its steps in their order, both under the key that was handed out for its name. Shell
commands keep their names. What was read back is not changed by another pass, whatever the
settings. -/
theorem config_round_trip (settings later : CircleCiSettings) (pipeline : Pipeline) :
    let restored := read (.ofYaml (write settings pipeline))
    let keys := (Keys.allocateAll pipeline.stageNames {}).1
    restored.variant = .circleCi ∧
      restored.stageNames = keys ∧ keys.length = pipeline.stages.length ∧
      restored.stages.map Stage.jobs = List.zipWith (fun key stage =>
        [{ name := key
           steps := (stage.jobs.flatMap Job.steps).map (keptStep Yaml.doubles.write) }])
        keys pipeline.stages ∧
      (∀ step command, step.command? = some command →
        keptStep Yaml.doubles.write step = .namedScript step.name command) ∧
      read (.ofYaml (write later restored)) = restored := by
  intro restored keys
  have shape : restored = ⟨.circleCi,
      List.zipWith (readBack Yaml.doubles.write) (jobKeys pipeline) pipeline.stages⟩ :=
    read_write settings pipeline
  have lengths := length_jobKeys pipeline
  refine ⟨by rw [shape], ?_, lengths, ?_, fun step command => keptStep_of_command, ?_⟩
  · rw [shape]
    exact names_zipWith_readBack lengths
  · rw [shape, List.map_zipWith]
    rfl
  · rw [shape, Node.ofYaml, read_write, jobKeys_readBack, zipWith_zipWith_self readBack_readBack]

end CiTranslate.CircleCi

import CiTranslate.Emitter
import CiTranslate.Proofs.InputValue
import CiTranslate.Proofs.Json.Compare
import CiTranslate.Proofs.Json.Fence
import CiTranslate.Proofs.Pipeline.Outline
import CiTranslate.Source

/-!
CodePipeline definitions that were written are read back from their text.

The text of a definition is its own payload, whatever names and parameters hold
(`ofText_writePretty`), so that nothing but the JSON reader stands between a text and its
document. The actions of a stage come back in one job named after the stage. A stage without
actions would lose that job, and is the only thing besides a missing stage that cannot be written
(`validate_eq_error_iff`).
-/

namespace CiTranslate.CodePipeline

variable {floatText : Float → String}

/-! ### What can be written -/

/-- The first stage without a step. -/
theorem find?_idle_eq_some_iff {stages : List Stage} {stage : Stage} :
    stages.find? (·.steps.isEmpty) = some stage ↔
      ∃ before after, stages = before ++ stage :: after ∧
        (∀ earlier ∈ before, earlier.steps ≠ []) ∧ stage.steps = [] := by
  constructor
  · intro found
    obtain ⟨idle, before, after, shape, busy⟩ := List.find?_eq_some_iff_append.mp found
    exact ⟨before, after, shape, fun earlier mem none => by simpa [none] using busy earlier mem,
      List.isEmpty_iff.mp idle⟩
  · rintro ⟨before, after, shape, busy, idle⟩
    exact List.find?_eq_some_iff_append.mpr
      ⟨List.isEmpty_iff.mpr idle, before, after, shape, fun earlier mem => by
        simpa using busy earlier mem⟩

theorem validate_nil (variant : Variant) :
    validate ⟨variant, []⟩ = .error (.misfit .noStages) := rfl

theorem validate_cons (variant : Variant) (stage : Stage) (stages : List Stage) :
    validate ⟨variant, stage :: stages⟩ =
      match (stage :: stages).find? (·.steps.isEmpty) with
      | some idle => .error (.misfit (.noActions idle.name))
      | none => .ok () := rfl

/-- Only missing stages and missing steps stand against writing, and the first stage without a
step is the one that is named. -/
theorem validate_eq_error_iff {pipeline : Pipeline} {error : Error} :
    validate pipeline = .error error ↔
      (pipeline.stages = [] ∧ error = .misfit .noStages) ∨
        ∃ before stage after, pipeline.stages = before ++ stage :: after ∧
          (∀ earlier ∈ before, earlier.steps ≠ []) ∧ stage.steps = [] ∧
          error = .misfit (.noActions stage.name) := by
  obtain ⟨variant, stages⟩ := pipeline
  cases stages with
  | nil =>
    rw [validate_nil]
    constructor
    · intro failure
      cases failure
      exact .inl ⟨rfl, rfl⟩
    · rintro (⟨-, rfl⟩ | ⟨before, stage, after, shape, -⟩)
      · rfl
      · cases before <;> cases shape
  | cons stage stages =>
    rw [validate_cons]
    cases found : (stage :: stages).find? (·.steps.isEmpty) with
    | some idle =>
      constructor
      · intro failure
        cases failure
        obtain ⟨before, after, shape, busy, none⟩ := find?_idle_eq_some_iff.mp found
        exact .inr ⟨before, idle, after, shape, busy, none, rfl⟩
      · rintro (⟨none, -⟩ | ⟨before, other, after, shape, busy, none, rfl⟩)
        · cases none
        · have same := find?_idle_eq_some_iff.mpr ⟨before, after, shape, busy, none⟩
          rw [Option.some.inj (found.symm.trans same)]
    | none =>
      constructor
      · intro failure
        cases failure
      · rintro (⟨none, -⟩ | ⟨before, other, after, shape, busy, none, -⟩)
        · cases none
        · have same := find?_idle_eq_some_iff.mpr ⟨before, after, shape, busy, none⟩
          cases found.symm.trans same

theorem validate_eq_ok_iff {pipeline : Pipeline} :
    validate pipeline = .ok () ↔
      pipeline.stages ≠ [] ∧ ∀ stage ∈ pipeline.stages, stage.steps ≠ [] := by
  obtain ⟨variant, stages⟩ := pipeline
  cases stages with
  | nil => exact ⟨fun failure => (nomatch failure), fun filled => absurd rfl filled.1⟩
  | cons stage stages =>
    have busy : (stage :: stages).find? (·.steps.isEmpty) = none ↔
        ∀ other ∈ stage :: stages, other.steps ≠ [] := by
      rw [List.find?_eq_none]
      exact forall₂_congr fun other _ => not_congr List.isEmpty_iff
    rw [validate_cons, ← busy]
    cases (stage :: stages).find? (·.steps.isEmpty) <;> simp

/-! ### Actions and stages -/

/-- The step that a step is read back as. Actions have no conditions, and a shell command is a
parameter like any other. -/
def keptStep (floatText : Float → String) (step : Step) : Step where
  name := step.name
  task := step.task
  inputs := step.inputs.rendered floatText

@[simp] theorem keptStep_keptStep (step : Step) :
    keptStep floatText (keptStep floatText step) = keptStep floatText step := by
  simp only [keptStep, Inputs.rendered_rendered]

theorem readAction_writeAction (step : Step) :
    readAction (.ofData floatText (writeAction step)) = keptStep floatText step := by
  obtain ⟨node, written⟩ : ∃ node, node = Node.ofData floatText (writeAction step) := ⟨_, rfl⟩
  have name : node.textAtD "name" unnamed.step = step.name := by
    simp [written, writeAction, Node.textAtD, Node.textAt?, Fields.get?_cons]
  have task : ((node.get? "actionTypeId").getD .null).textAtD "provider" unnamed.task =
      step.task := by
    simp [written, writeAction, Node.textAtD, Node.textAt?, Fields.get?_cons]
  have inputs : Inputs.ofNodeAt "configuration" node = step.inputs.rendered floatText := by
    have found : node.get? "configuration" = some (.ofData floatText step.inputs.toData) := by
      simp [written, writeAction, Fields.get?_cons]
    rw [← Inputs.ofNode_toData, Inputs.ofNodeAt, Node.inputTextsAt, found]
    rfl
  rw [← written, readAction, name, task, inputs, keptStep]

/-- The stage that a stage with steps is read back as. -/
def readBack (floatText : Float → String) (stage : Stage) : Stage where
  name := stage.name
  jobs := [{ name := stageJobName stage.name, steps := stage.steps.map (keptStep floatText) }]

@[simp] theorem steps_readBack (stage : Stage) :
    (readBack floatText stage).steps = stage.steps.map (keptStep floatText) := by
  simp [readBack, Stage.steps]

theorem readBack_readBack (stage : Stage) :
    readBack floatText (readBack floatText stage) = readBack floatText stage := by
  rw [readBack, steps_readBack, List.map_map]
  simp only [readBack, Function.comp_def, keptStep_keptStep]

theorem readStage_writeStage {stage : Stage} (busy : stage.steps ≠ []) :
    readStage (.ofData floatText (writeStage stage)) = readBack floatText stage := by
  obtain ⟨node, written⟩ : ∃ node, node = Node.ofData floatText (writeStage stage) := ⟨_, rfl⟩
  have name : stageName node = stage.name := by
    have own : node.textAtD "name" unnamed.stage = stage.name := by
      simp [written, writeStage, Node.textAtD, Node.textAt?, Fields.get?_cons]
    rw [← own, written]
    rfl
  have actions :
      node.itemsAt "actions" = stage.steps.map (Node.ofData floatText ∘ writeAction) := by
    simp [written, writeStage, Node.itemsAt, Fields.get?_cons]
  have jobs : node.itemsAt "jobs" = [] := by
    simp [written, writeStage, Node.itemsAt, Node.items, Fields.get?_cons]
  obtain ⟨step, steps, shape⟩ := List.exists_cons_of_ne_nil busy
  rw [← written, readStage, name, actions, jobs, readBack, shape]
  simp only [List.map_cons, List.map_nil, List.append_nil, jobOfActions, List.map_map,
    Function.comp_def, readAction_writeAction]

/-! ### Definitions -/

/-- A definition with steps in all its stages is read back stage by stage. -/
theorem read_write {pipeline : Pipeline} (busy : ∀ stage ∈ pipeline.stages, stage.steps ≠ []) :
    read (.ofData floatText (write pipeline)) =
      { variant := .aws, stages := pipeline.stages.map (readBack floatText) } := by
  obtain ⟨document, written⟩ :
      ∃ document, document = Node.ofData floatText (write pipeline) := ⟨_, rfl⟩
  have plain : root document = document := by
    have none : document.get? "pipeline" = none := by simp [written, write, Fields.get?_cons]
    rw [root, none]
  have stages : document.itemsAt "stages" =
      pipeline.stages.map (Node.ofData floatText ∘ writeStage) := by
    simp [written, write, Node.itemsAt, Fields.get?_cons]
  rw [← written, read, plain, stages, List.map_map]
  exact congrArg (Pipeline.mk _)
    (List.map_congr_left fun stage mem => readStage_writeStage (busy stage mem))

theorem busy_readBack {stages : List Stage} (busy : ∀ stage ∈ stages, stage.steps ≠ []) :
    ∀ stage ∈ stages.map (readBack floatText), stage.steps ≠ [] := by
  intro stage mem
  obtain ⟨old, own, rfl⟩ := List.mem_map.mp mem
  rw [steps_readBack]
  exact fun none => busy old own (List.map_eq_nil_iff.mp none)

/-! ### Names -/

theorem stepNames_readBack (stage : Stage) :
    (readBack floatText stage).stepNames = stage.stepNames := by
  simp [Stage.stepNames, keptStep, Function.comp_def]

/-- A stage keeps its names where it is one job that is named after it. -/
theorem outline_readBack_iff (stage : Stage) :
    (readBack floatText stage).outline = stage.outline ↔
      stage.jobs.map Job.name = [stageJobName stage.name] := by
  have kept : (readBack floatText stage).outline =
      (stage.name, [(stageJobName stage.name, stage.stepNames)]) := by
    simp [Stage.outline, readBack, Stage.stepNames, keptStep, Function.comp_def]
  rw [kept]
  constructor
  · intro same
    rw [Stage.map_name_jobs, ← same]
    rfl
  · intro names
    obtain ⟨job, only, name⟩ := List.map_eq_singleton_iff.mp names
    simp [Stage.outline, Stage.stepNames, Stage.steps, only, name]

theorem outline_read_write_iff {pipeline : Pipeline}
    (busy : ∀ stage ∈ pipeline.stages, stage.steps ≠ []) :
    (read (.ofData floatText (write pipeline))).outline = pipeline.outline ↔
      ∀ stage ∈ pipeline.stages, stage.jobs.map Job.name = [stageJobName stage.name] := by
  rw [read_write busy, Pipeline.outline_eq_map, Pipeline.outline_eq_map, List.map_map,
    List.map_inj_left]
  exact forall₂_congr fun stage _ => outline_readBack_iff stage

theorem map_stepNames_read_write {pipeline : Pipeline}
    (busy : ∀ stage ∈ pipeline.stages, stage.steps ≠ []) :
    (read (.ofData floatText (write pipeline))).stages.map Stage.stepNames =
      pipeline.stages.map Stage.stepNames := by
  rw [read_write busy, List.map_map]
  exact List.map_congr_left fun stage _ => stepNames_readBack stage

theorem fits_read_write {pipeline : Pipeline}
    (busy : ∀ stage ∈ pipeline.stages, stage.steps ≠ []) :
    ∀ stage ∈ (read (.ofData floatText (write pipeline))).stages,
      stage.jobs.map Job.name = [stageJobName stage.name] := by
  intro stage mem
  rw [read_write busy] at mem
  obtain ⟨old, -, rfl⟩ := List.mem_map.mp mem
  rfl

/-! ### Texts -/

theorem toText_eq (settings : Settings) (pipeline : Pipeline) :
    (pipeline.retarget .aws).toText settings =
      (validate pipeline).map fun _ => Json.writePretty (write pipeline) := by
  have emitter : (pipeline.retarget .aws).toText settings = Emitter.codepipeline.write pipeline :=
    rfl
  rw [emitter, Emitter.write, Emitter.codepipeline]
  dsimp only
  cases validate pipeline <;> rfl

theorem toText_eq_error_iff {settings : Settings} {pipeline : Pipeline} {error : Error} :
    (pipeline.retarget .aws).toText settings = .error error ↔ validate pipeline = .error error := by
  rw [toText_eq]
  cases validate pipeline <;> simp [Except.map]

theorem toText_eq_ok_iff {settings : Settings} {pipeline : Pipeline} {text : String} :
    (pipeline.retarget .aws).toText settings = .ok text ↔
      (pipeline.stages ≠ [] ∧ ∀ stage ∈ pipeline.stages, stage.steps ≠ []) ∧
        Json.writePretty (write pipeline) = text := by
  rw [toText_eq, ← validate_eq_ok_iff]
  cases validate pipeline <;> simp [Except.map]

theorem ofText_write (pipeline : Pipeline) :
    Payload.ofText .codepipeline (Json.writePretty (write pipeline)) =
      .ok (.json (Json.writePretty (write pipeline))) :=
  Json.ofText_writePretty _ _

/-- What is read from the text of a definition is what is read from its document, as long as the
JSON reader gives the definition back. -/
theorem parse_writePretty {pipeline : Pipeline}
    (readsBack : Json.read (Json.writePretty (write pipeline)) = .ok (write pipeline)) :
    Pipeline.parse .codepipeline (Json.writePretty (write pipeline)) =
      .ok (read (.ofJson (write pipeline))) := by
  have source : Source.ofPayload (.json (Json.writePretty (write pipeline))) =
      .ok (.document (.ofJson (write pipeline))) := by
    rw [Source.ofPayload, Node.decodeJson, readsBack]
    rfl
  simp only [Pipeline.parse, ofText_write, source]
  rfl

/-- **Definitions are read back from their text.** Writing fails exactly where there is no stage,
or a stage has no step in any job, and names the first such stage. Any text that is written is its
own payload, whatever backticks and line ends there are in names and parameters. As long as the
JSON reader gives back what was written, every stage comes back in its place with one job, named
after it, that holds the steps of all its jobs, without their conditions and with their parameters
rendered; and another pass gives the same pipeline. -/
theorem definition_round_trip (settings later : Settings) (pipeline : Pipeline) :
    let restored : Pipeline := {
      variant := .aws
      stages := pipeline.stages.map fun stage =>
        { name := stage.name
          jobs := [
            { name := stage.name ++ "_job"
              steps := (stage.jobs.flatMap Job.steps).map fun step =>
                { name := step.name
                  task := step.task
                  inputs := step.inputs.rendered Json.doubles.write
                  condition := none } }] } }
    (∀ error, (pipeline.retarget .aws).toText settings = .error error ↔
      (pipeline.stages = [] ∧ error = .misfit .noStages) ∨
        ∃ before stage after, pipeline.stages = before ++ stage :: after ∧
          (∀ earlier ∈ before, earlier.jobs.flatMap Job.steps ≠ []) ∧
          stage.jobs.flatMap Job.steps = [] ∧ error = .misfit (.noActions stage.name)) ∧
    ∀ text, (pipeline.retarget .aws).toText settings = .ok text →
      Payload.ofText .codepipeline text = .ok (.json text) ∧
      (Json.read text = .ok (write pipeline) →
        Pipeline.parse .codepipeline text = .ok restored ∧
        ∃ again, restored.toText later = .ok again ∧
          (Json.read again = .ok (write restored) →
            Pipeline.parse .codepipeline again = .ok restored)) := by
  intro restored
  have shape : restored = ⟨.aws, pipeline.stages.map (readBack Json.doubles.write)⟩ := rfl
  refine ⟨fun error => toText_eq_error_iff.trans validate_eq_error_iff, fun text written => ?_⟩
  obtain ⟨⟨some, busy⟩, rfl⟩ := toText_eq_ok_iff.mp written
  have first : read (.ofJson (write pipeline)) = restored := read_write busy
  have later_busy : ∀ stage ∈ restored.stages, stage.steps ≠ [] := busy_readBack busy
  have second : read (.ofJson (write restored)) = restored := by
    rw [shape] at later_busy ⊢
    rw [Node.ofJson, read_write later_busy, List.map_map]
    simp only [Function.comp_def, readBack_readBack]
  refine ⟨ofText_write pipeline, fun readsBack => ⟨?_, Json.writePretty (write restored), ?_, ?_⟩⟩
  · rw [parse_writePretty readsBack, first]
  · exact toText_eq_ok_iff.mpr ⟨⟨fun none => some (List.map_eq_nil_iff.mp none), later_busy⟩, rfl⟩
  · intro again
    rw [parse_writePretty again, second]

/-- A pipeline with fences in names, a task and a parameter, and with a list as a parameter. -/
def fenced : Pipeline where
  variant := .aws
  stages := [
    { name := "```yaml\n", jobs := [
        { name := "```yaml\n_job", steps := [
            { name := "a\n```\nb", task := "```"
              inputs := .ofList [("notes", "```\n"), ("tags", "[\"x\",\"1\"]")] },
            .script "make"] }] }]

/-- The pipeline with fences as it comes back. -/
def fencedBack : Pipeline := ⟨.aws, fenced.stages.map (readBack Json.doubles.write)⟩

theorem fencedBack_eq : fencedBack = fenced := by
  decide +kernel

theorem readChars_pretty_fenced :
    Json.readChars (Json.pretty 0 (write fenced)) = .ok (write fenced) :=
  Json.readChars_eq_ok (by decide +kernel)

/-- Definitions that the JSON reader gives back, in both passes, exist. -/
theorem definition_round_trip_fenced :
    ∃ text, fenced.toText {} = .ok text ∧ Json.read text = .ok (write fenced) ∧
      Pipeline.parse .codepipeline text = .ok fenced ∧
      ∃ again, fenced.toText {} = .ok again ∧ Pipeline.parse .codepipeline again = .ok fenced := by
  have library : Json.read (Json.writePretty (write fenced)) = .ok (write fenced) :=
    Json.read_eq_ok (by rw [Json.writePretty, String.toList_ofList, readChars_pretty_fenced])
  have written : (fenced.retarget .aws).toText {} = .ok (Json.writePretty (write fenced)) :=
    toText_eq_ok_iff.mpr ⟨⟨List.cons_ne_nil _ _, by simp [fenced, Stage.steps]⟩, rfl⟩
  obtain ⟨-, texts⟩ := definition_round_trip {} {} fenced
  obtain ⟨-, readsBack⟩ := texts _ written
  obtain ⟨parsed, again, emitted, second⟩ := readsBack library
  change _ = Except.ok fencedBack at parsed
  change fencedBack.toText {} = _ at emitted
  change _ = Except.ok (write fencedBack) → _ = Except.ok fencedBack at second
  rw [fencedBack_eq] at parsed emitted second
  have same : Json.writePretty (write fenced) = again :=
    Except.ok.inj (written.symm.trans emitted)
  exact ⟨_, written, library, parsed, again, emitted, second (same ▸ library)⟩

end CiTranslate.CodePipeline

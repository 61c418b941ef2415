import CiTranslate.CommandLine.Command
import CiTranslate.Proofs.InputValue
import CiTranslate.Proofs.Json.Typed

/-!
Pipelines survive their JSON texts.

The data of a step, job, stage or pipeline fits its shape, with a full form in which the fields
that were left out are empty (`Step.fits`, `Job.fits`, `Stage.fits`, `Pipeline.fits`). What is read
from the full form is what was written, at each level, so that a pipeline comes back from each of
its texts (`Pipeline.ofData_readAs`).
-/

namespace CiTranslate

open Shape (Entry Fits)

/-! ### Steps -/

namespace Step

/-- The parameters as a field, in full form. -/
def inputsEntry (step : Step) : Entry :=
  ⟨"inputs", .texts, .record (Fields.mapValues .text step.inputs.fields),
    .record (Fields.mapValues .text step.inputs.fields)⟩

/-- The condition as a field, in full form. -/
def conditionEntry (text : String) : Entry :=
  ⟨"condition", .optional .text, .text text, .text text⟩

/-- The fields of a step that are written. -/
def entries (step : Step) : List Entry :=
  ⟨"name", .text, .text step.name, .text step.name⟩ ::
    ⟨"task", .text, .text step.task, .text step.task⟩ ::
    ((if step.inputs.isEmpty then [] else [step.inputsEntry]) ++
      (step.condition.map conditionEntry).toList)

/-- A step with all its fields. -/
def fullData (step : Step) : Data :=
  .record
    [("name", .text step.name), ("task", .text step.task),
      ("inputs", .record (Fields.mapValues .text step.inputs.fields)),
      ("condition", (step.condition.map .text).getD .null)]

theorem mem_entries {step : Step} {entry : Entry} (mem : entry ∈ step.entries) :
    entry = ⟨"name", .text, .text step.name, .text step.name⟩ ∨
      entry = ⟨"task", .text, .text step.task, .text step.task⟩ ∨
      entry = step.inputsEntry ∨ ∃ text, entry = conditionEntry text := by
  rcases List.mem_cons.mp mem with name | mem
  · exact .inl name
  rcases List.mem_cons.mp mem with task | mem
  · exact .inr (.inl task)
  rcases List.mem_append.mp mem with inputs | condition
  · split at inputs
    · cases inputs
    · exact .inr (.inr (.inl (List.mem_singleton.mp inputs)))
  · obtain ⟨text, -, rfl⟩ := Option.map_eq_some_iff.mp (Option.mem_toList.mp condition)
    exact .inr (.inr (.inr ⟨text, rfl⟩))

theorem toData_eq (step : Step) : step.toData = .record (step.entries.map Entry.given) := by
  cases empty : step.inputs.isEmpty <;> cases absent : step.condition <;>
    simp [toData, Data.recordOf, entries, Entry.given, inputsEntry, conditionEntry, empty, absent]

/-- Parameters and a condition that were left out are empty in the full form. -/
theorem fits (step : Step) : Fits shape step.toData step.fullData := by
  rw [toData_eq]
  refine .record ?distinct ?known ?all ?filled
  case distinct =>
    cases empty : step.inputs.isEmpty <;> cases absent : step.condition <;>
      simp [entries, inputsEntry, conditionEntry, empty, absent]
  case known =>
    intro entry mem
    rcases mem_entries mem with rfl | rfl | rfl | ⟨text, rfl⟩ <;> rfl
  case all =>
    intro entry mem
    rcases mem_entries mem with rfl | rfl | rfl | ⟨text, rfl⟩
    · exact .text step.name
    · exact .text step.task
    · exact .texts step.inputs.distinct
    · exact .present rfl (.text text)
  case filled =>
    cases empty : step.inputs.isEmpty with
    | true =>
      have none : step.inputs.fields = [] := List.isEmpty_iff.mp empty
      cases absent : step.condition <;>
        simp [entries, Entry.filled, Shape.fill, Fields.get?, Except.map, Fields.mapValues,
          conditionEntry, empty, absent, none]
    | false =>
      cases absent : step.condition <;>
        simp [entries, Entry.filled, Shape.fill, Fields.get?, Except.map, inputsEntry,
          conditionEntry, empty, absent]

theorem textFields_mapValues (fields : Fields String) :
    textFields (Fields.mapValues .text fields) = fields := by
  rw [textFields, Fields.mapValues, List.filterMap_map]
  exact List.filterMap_some

theorem ofData_fullData (step : Step) : ofData step.fullData = step := by
  obtain ⟨name, task, inputs, condition⟩ := step
  have restored : Inputs.ofList (textFields (Fields.mapValues .text inputs.fields)) = inputs :=
    Inputs.eq_of_fields_eq (by
      rw [textFields_mapValues]
      exact Fields.ofList_eq_self inputs.distinct)
  have given :
      (fullData ⟨name, task, inputs, condition⟩).textField? "condition" = condition := by
    cases condition <;> rfl
  rw [ofData, given]
  exact congrArg (mk name task · condition) restored

end Step

/-! ### Lists of parts

A job, a stage and a pipeline each hold one value and a list of parts, both of which are always
written. -/

section Parts

variable {α : Type} {toData fullData : α → Data}

theorem fits_list {item : Shape} (fits : ∀ part, Fits item (toData part) (fullData part))
    (parts : List α) :
    Fits (.list item) (.list (parts.map toData)) (.list (parts.map fullData)) := by
  have all : ∀ pair ∈ parts.map fun part => (toData part, fullData part),
      Fits item pair.1 pair.2 := by
    intro pair mem
    obtain ⟨part, -, rfl⟩ := List.mem_map.mp mem
    exact fits part
  have list := Fits.list all
  rwa [List.map_map, List.map_map] at list

theorem fits_parts {name key partsKey : String} {shape item : Shape} {value : Data}
    (other : key ≠ partsKey) (fitsValue : Fits shape value value)
    (fits : ∀ part, Fits item (toData part) (fullData part)) (parts : List α) :
    Fits (.record name false [(key, shape, none), (partsKey, .list item, some (.list []))])
      (.record [(key, value), (partsKey, .list (parts.map toData))])
      (.record [(key, value), (partsKey, .list (parts.map fullData))]) := by
  let entries : List Entry := [⟨key, shape, value, value⟩,
    ⟨partsKey, .list item, .list (parts.map toData), .list (parts.map fullData)⟩]
  have distinct : (entries.map Entry.key).Nodup := by simpa [entries] using other
  refine .record distinct ?known ?all ?filled
  case known => simp [entries, Shape.shapeOf?, other]
  case all => simpa [entries] using ⟨fitsValue, fits_list fits parts⟩
  case filled => simp [entries, Shape.fill, Fields.get?, Entry.filled, Except.map, other]

end Parts

/-! ### Jobs and stages -/

namespace Job

/-- A job whose steps have all their fields. -/
def fullData (job : Job) : Data :=
  .record [("name", .text job.name), ("steps", .list (job.steps.map Step.fullData))]

theorem fits (job : Job) : Fits shape job.toData job.fullData :=
  fits_parts (by decide) (.text job.name) Step.fits job.steps

theorem ofData_fullData (job : Job) : ofData job.fullData = job := by
  have steps : (itemsOf "steps" job.fullData).map Step.ofData = job.steps := by
    change (job.steps.map Step.fullData).map Step.ofData = job.steps
    simp [Function.comp_def, Step.ofData_fullData]
  exact congrArg (mk job.name) steps

end Job

namespace Stage

/-- A stage whose steps have all their fields. -/
def fullData (stage : Stage) : Data :=
  .record [("name", .text stage.name), ("jobs", .list (stage.jobs.map Job.fullData))]

theorem fits (stage : Stage) : Fits shape stage.toData stage.fullData :=
  fits_parts (by decide) (.text stage.name) Job.fits stage.jobs

theorem ofData_fullData (stage : Stage) : ofData stage.fullData = stage := by
  have jobs : (Job.itemsOf "jobs" stage.fullData).map Job.ofData = stage.jobs := by
    change (stage.jobs.map Job.fullData).map Job.ofData = stage.jobs
    simp [Function.comp_def, Job.ofData_fullData]
  exact congrArg (mk stage.name) jobs

end Stage

/-! ### Pipelines -/

namespace Pipeline

/-- A pipeline whose steps have all their fields. -/
def fullData (pipeline : Pipeline) : Data :=
  .record
    [("variant", .text pipeline.variant.name),
      ("stages", .list (pipeline.stages.map Stage.fullData))]

theorem fits (pipeline : Pipeline) : Fits shape pipeline.toData pipeline.fullData :=
  fits_parts (by decide)
    (.choice (List.mem_map_of_mem pipeline.variant.mem_all)) Stage.fits pipeline.stages

theorem ofData_fullData (pipeline : Pipeline) : ofData pipeline.fullData = pipeline := by
  have stages : (Job.itemsOf "stages" pipeline.fullData).map Stage.ofData = pipeline.stages := by
    change (pipeline.stages.map Stage.fullData).map Stage.ofData = pipeline.stages
    simp [Function.comp_def, Stage.ofData_fullData]
  have variant : (Variant.ofName? pipeline.variant.name).getD default = pipeline.variant := by
    rw [Variant.ofName?_name, Option.getD_some]
  calc ofData pipeline.fullData
      = mk ((Variant.ofName? pipeline.variant.name).getD default)
          ((Job.itemsOf "stages" pipeline.fullData).map Stage.ofData) := rfl
    _ = pipeline := by rw [variant, stages]

theorem height_shape : shape.height ≤ 64 := by decide

/-- The lines that are printed for a pipeline end with a blank. -/
theorem printPipeline_json (pipeline : Pipeline) :
    CommandLine.printPipeline .json pipeline =
      String.ofList (Json.spell Json.prettyLayout 0 pipeline.toData ++ ['\n']) := by
  rw [Json.spell_prettyLayout, String.ofList_append]
  rfl

theorem readAs_printPipeline (pipeline : Pipeline) :
    Json.readAs shape (CommandLine.printPipeline .json pipeline) = .ok pipeline.fullData := by
  have blank : Json.IsGap ['\n'] := by simp [Json.IsGap, Json.isSpace]
  have read :=
    Json.readAs_spell pipeline.fits height_shape Json.prettyLayout 0 Json.isGap_nil blank
  rwa [List.nil_append, ← printPipeline_json] at read

/-- Every pipeline comes back from its JSON text, compact or with one item a line, and from the
lines that are printed for it. -/
theorem ofData_readAs (pipeline : Pipeline) :
    (Json.readAs shape (Json.write pipeline.toData)).map ofData = .ok pipeline ∧
      (Json.readAs shape (Json.writePretty pipeline.toData)).map ofData = .ok pipeline ∧
      (Json.readAs shape (CommandLine.printPipeline .json pipeline)).map ofData =
        .ok pipeline := by
  have restored : (Except.ok pipeline.fullData).map ofData =
      (.ok pipeline : Except Json.Error Pipeline) := congrArg Except.ok (ofData_fullData pipeline)
  rw [Json.readAs_write pipeline.fits height_shape,
    Json.readAs_writePretty pipeline.fits height_shape, readAs_printPipeline]
  exact ⟨restored, restored, restored⟩

end Pipeline

end CiTranslate

import CiTranslate.Pipeline
import CiTranslate.Shape.OfData

/-!
Pipelines as structured data. Parameters and conditions that a step does not have are left
out when it is written, and absent fields are empty when it is read.
-/

namespace CiTranslate

namespace Step

def shape : Shape :=
  .record "Step" false
    [("name", .text, none), ("task", .text, none), ("inputs", .texts, some (.record [])),
      ("condition", .optional .text, some .null)]

def toData (step : Step) : Data :=
  .recordOf
    [("name", some (.text step.name)), ("task", some (.text step.task)),
      ("inputs", if step.inputs.isEmpty then none
        else some (.record (Fields.mapValues .text step.inputs.fields))),
      ("condition", step.condition.map .text)]

/-- The texts among named values. -/
def textFields : List (String × Data) → List (String × String) :=
  List.filterMap fun field => field.2.text?.map fun text => (field.1, text)

/-- The step of data in full form. -/
def ofData (data : Data) : Step where
  name := (data.textField? "name").getD ""
  task := (data.textField? "task").getD ""
  inputs := .ofList (match data.field? "inputs" with
    | some (.record fields) => textFields fields
    | _ => [])
  condition := data.textField? "condition"

end Step

namespace Job

def shape : Shape :=
  .record "Job" false [("name", .text, none), ("steps", .list Step.shape, some (.list []))]

def toData (job : Job) : Data :=
  .record [("name", .text job.name), ("steps", .list (job.steps.map Step.toData))]

/-- The items of a list in a field. -/
def itemsOf (key : String) (data : Data) : List Data := ((data.field? key).getD .null).items

def ofData (data : Data) : Job where
  name := (data.textField? "name").getD ""
  steps := (itemsOf "steps" data).map Step.ofData

end Job

namespace Stage

def shape : Shape :=
  .record "Stage" false [("name", .text, none), ("jobs", .list Job.shape, some (.list []))]

def toData (stage : Stage) : Data :=
  .record [("name", .text stage.name), ("jobs", .list (stage.jobs.map Job.toData))]

def ofData (data : Data) : Stage where
  name := (data.textField? "name").getD ""
  jobs := (Job.itemsOf "jobs" data).map Job.ofData

end Stage

def Variant.shape : Shape := .choice (Variant.all.map Variant.name)

namespace Pipeline

def shape : Shape :=
  .record "Pipeline" false
    [("variant", Variant.shape, none), ("stages", .list Stage.shape, some (.list []))]

def toData (pipeline : Pipeline) : Data :=
  .record
    [("variant", .text pipeline.variant.name), ("stages", .list (pipeline.stages.map Stage.toData))]

/-- The pipeline of data in full form. -/
def ofData (data : Data) : Pipeline where
  variant := ((data.textField? "variant").bind Variant.ofName?).getD default
  stages := (Job.itemsOf "stages" data).map Stage.ofData

end Pipeline

end CiTranslate

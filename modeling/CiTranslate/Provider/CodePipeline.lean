import CiTranslate.Error
import CiTranslate.InputValue

/-!
AWS CodePipeline definitions.

There are no jobs: the actions of a stage are read into one job named after it, and the
steps of all jobs of a stage are written as its actions. Every stage needs an action.
-/

namespace CiTranslate.CodePipeline

/-! ### Reading -/

def readAction (action : Node) : Step where
  name := action.textAtD "name" unnamed.step
  task := ((action.get? "actionTypeId").getD .null).textAtD "provider" unnamed.task
  inputs := .ofNodeAt "configuration" action

def readStep (node : Node) : Step where
  name := node.textAtD "name" unnamed.step
  task := node.textAtD "task" unnamed.task
  inputs := .ofNodeAt "inputs" node

def readJob (node : Node) : Job where
  name := node.textAtD "name" unnamed.job
  steps := (node.itemsAt "steps").map readStep

/-- The job of a stage's actions, if it has any. -/
def jobOfActions (stage : String) : List Node → List Job
  | [] => []
  | actions => [{ name := stageJobName stage, steps := actions.map readAction }]

def stageName : Node → String
  | .scalar name => name
  | node => node.textAtD "name" unnamed.stage

def readStage (node : Node) : Stage where
  name := stageName node
  jobs := jobOfActions (stageName node) (node.itemsAt "actions") ++
    (node.itemsAt "jobs").map readJob

/-- The definition, which may stand under `pipeline`. -/
def root (document : Node) : Node :=
  match document.get? "pipeline" with
  | some (.mapping entries) => .mapping entries
  | _ => document

def read (document : Node) : Pipeline where
  variant := .aws
  stages := ((root document).itemsAt "stages").map readStage

/-! ### Writing -/

def writeAction (step : Step) : Data :=
  let actionType : Data := .record
    [("category", .text "Build"), ("owner", .text "AWS"), ("provider", .text step.task),
      ("version", .text "1")]
  .record
    [("name", .text step.name), ("actionTypeId", actionType),
      ("configuration", step.inputs.toData), ("outputArtifacts", .list []),
      ("inputArtifacts", .list []), ("runOrder", .int 1)]

def writeStage (stage : Stage) : Data :=
  .record [("name", .text stage.name), ("actions", .list (stage.steps.map writeAction))]

/-- Checks that there is a stage, and a step in every stage. -/
def validate (pipeline : Pipeline) : Except Error Unit :=
  if pipeline.isEmpty then .error (.misfit .noStages)
  else
    match pipeline.stages.find? (·.steps.isEmpty) with
    | some stage => .error (.misfit (.noActions stage.name))
    | none => .ok ()

def write (pipeline : Pipeline) : Data :=
  .record [("version", .text "1.0"), ("stages", .list (pipeline.stages.map writeStage))]

end CiTranslate.CodePipeline

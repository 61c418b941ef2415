import CiTranslate.InputValue
import CiTranslate.Keys
import CiTranslate.Settings

/-!
CircleCI configurations.

There are no stages: each job is read as a stage with one job of the same name. A step is a
word, or a task with its parameters, one of which may be the name of the step.
-/

namespace CiTranslate.CircleCi

/-! ### Reading -/

/-- A shell command, alone or with a name. -/
def readRun (body : Node) : Step :=
  match body with
  | .scalar command => .script command
  | _ =>
    let command := body.textAtD "command" ""
    match body.textAt? "name" with
    | some name => .namedScript name command
    | none => .script command

/-- A task with its parameters. -/
def readTask (task : String) (body : Node) : Step :=
  let inputs := Inputs.ofNode body
  { name := (inputs.get? "name").getD task, task, inputs := inputs.erase "name" }

def readStep (node : Node) : Step :=
  match node with
  | .scalar task => { name := task, task }
  | .mapping [(task, body)] => if task = "run" then readRun body else readTask task body
  | _ => { name := node.textAtD "name" unnamed.step, task := node.textAtD "task" unnamed.task }

def readStage (name : String) (node : Node) : Stage where
  name := name
  jobs := [{ name, steps := (node.itemsAt "steps").map readStep }]

def read (document : Node) : Pipeline where
  variant := .circleCi
  stages :=
    match document.get? "jobs" with
    | some (.mapping jobs) => jobs.map fun (name, node) => readStage name node
    | some (.sequence jobs) => jobs.map fun node => readStage (node.textAtD "name" unnamed.job) node
    | _ => []

/-! ### Writing -/

/-- The parameters of a task, after the name of the step where that is not the task. -/
def parameters (step : Step) : List (String × Data) :=
  let name := if step.name = step.task then [] else [("name", Data.text step.name)]
  Fields.ofList (name ++ Fields.mapValues inputValue step.inputs.fields)

def writeStep (step : Step) : Data :=
  match step.command? with
  | some command =>
    let run := if step.name = command then .text command
      else .record [("name", .text step.name), ("command", .text command)]
    .record [("run", run)]
  | none =>
    if step.name = step.task ∧ step.inputs.isEmpty then .text step.task
    else .record [(step.task, .record (parameters step))]

/-- The keys of the jobs. -/
def jobKeys (pipeline : Pipeline) : List String :=
  (Keys.allocateAll pipeline.stageNames {}).1

def writeStage (settings : CircleCiSettings) (stage : Stage) : Data :=
  .record
    [("docker", .list [.record [("image", .text settings.image)]]),
      ("steps", .list (stage.steps.map writeStep))]

def write (settings : CircleCiSettings) (pipeline : Pipeline) : Data :=
  let keys := jobKeys pipeline
  .record
    [("version", .float 2.1),
      ("jobs", .record (keys.zip (pipeline.stages.map (writeStage settings)))),
      ("workflows", .record [(settings.workflow, .record [("jobs", .texts keys)])])]

end CiTranslate.CircleCi

import CiTranslate.Identifier
import CiTranslate.InputValue
import CiTranslate.Keys
import CiTranslate.Settings

/-!
GitHub Actions workflows.

A workflow has no stages. Each of its jobs is read as a stage with one job, the stage named
by the key of the job and the job by its name; a stage is written as one job with the steps
of all its jobs.
-/

namespace CiTranslate.GitHub

/-! ### Reading -/

def readStep (node : Node) : Step :=
  let condition := node.textAt? "if"
  let name := node.firstTextAt? ["name", "id"]
  match node.textAt? "run" with
  | some command => { Step.namedScript (name.getD command) command with condition }
  | none =>
    let action := node.textAt? "uses"
    { name := (name.or action).getD unnamed.step
      task := action.getD unnamed.task
      inputs := .ofNodeAt "with" node
      condition }

def readStage (key name : String) (node : Node) : Stage where
  name := key
  jobs := [{ name, steps := (node.itemsAt "steps").map readStep }]

/-- A job that is an item of a list. -/
def readListed (node : Node) : Stage :=
  let name := (node.firstTextAt? ["name", "id"]).getD unnamed.job
  readStage (node.textAtD "id" name) name node

def read (document : Node) : Pipeline where
  variant := .gitHubActions
  stages :=
    match document.get? "jobs" with
    | some (.mapping jobs) =>
      jobs.map fun (key, node) => readStage key (node.textAtD "name" key) node
    | some (.sequence jobs) => jobs.map readListed
    | _ => []

/-! ### Writing -/

def writeStep (step : Step) : Data :=
  let condition := step.condition.map Data.text
  let nameUnless (other : String) := if step.name = other then none else some (Data.text step.name)
  match step.command? with
  | some command =>
    .recordOf
      [("name", nameUnless command), ("if", condition), ("run", some (.text command))]
  | none =>
    .recordOf
      [("name", nameUnless step.task), ("if", condition), ("uses", some (.text step.task)),
        ("with", step.inputs.toData?)]

/-- The name of the job that a stage is written as. -/
def jobName (stage : Stage) : String :=
  match stage.jobs with
  | [job] => job.name
  | _ => stage.name

def writeStage (settings : GitHubSettings) (stage : Stage) : Data :=
  .record
    [("name", .text (jobName stage)), ("runs-on", .text settings.runsOn),
      ("steps", .list (stage.steps.map writeStep))]

/-- The keys of the jobs. -/
def jobKeys (pipeline : Pipeline) : List String :=
  (Keys.allocateAll (pipeline.stageNames.map (identifier true)) {}).1

def write (settings : GitHubSettings) (pipeline : Pipeline) : Data :=
  .record
    [("name", .text settings.workflowName), ("on", .texts ["push"]),
      ("jobs", .record ((jobKeys pipeline).zip (pipeline.stages.map (writeStage settings))))]

end CiTranslate.GitHub

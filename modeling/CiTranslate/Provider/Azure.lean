import CiTranslate.Identifier
import CiTranslate.InputValue
import CiTranslate.Settings

/-!
Azure Pipelines documents.

A document has stages of jobs, or only jobs, each of which then is a stage. Jobs and steps
have a display name, and jobs also an identifier. A shell command may be written under
several keys, but is always written back under `script`.
-/

namespace CiTranslate.Azure

/-! ### Reading -/

/-- The keys that hold a shell command. -/
def commandKeys : List String := ["script", "bash", "pwsh", "powershell"]

def readStep (node : Node) : Step :=
  let condition := node.textAt? "condition"
  let name := node.firstTextAt? ["displayName", "name"]
  match node.firstTextAt? commandKeys with
  | some command => { Step.namedScript (name.getD command) command with condition }
  | none =>
    { name := name.getD unnamed.step
      task := node.textAtD "task" unnamed.task
      inputs := .ofNodeAt "inputs" node
      condition }

def readJob (node : Node) : Job where
  name := (node.firstTextAt? ["displayName", "job", "deployment"]).getD unnamed.job
  steps := (node.itemsAt "steps").map readStep

def readStage (node : Node) : Stage where
  name := node.textAtD "stage" unnamed.stage
  jobs := (node.itemsAt "jobs").map readJob

/-- The stage of a job that stands outside of stages. -/
def stageOfJob (job : Job) : Stage := { name := job.name, jobs := [job] }

def read (document : Node) : Pipeline where
  variant := .azureDevOps
  stages :=
    match document.itemsAt "stages" with
    | [] => (document.itemsAt "jobs").map fun node => stageOfJob (readJob node)
    | stages => stages.map readStage

/-! ### Writing -/

def writeStep (step : Step) : Data :=
  let condition := step.condition.map Data.text
  match step.command? with
  | some command =>
    .recordOf
      [("script", some (.text command)),
        ("displayName", if step.name = command then none else some (.text step.name)),
        ("condition", condition)]
  | none =>
    .recordOf
      [("task", some (.text step.task)), ("displayName", some (.text step.name)),
        ("inputs", step.inputs.toData?), ("condition", condition)]

def writeJob (name : String) (steps : List Step) : Data :=
  .record
    [("job", .text (identifier false name)), ("displayName", .text name),
      ("steps", .list (steps.map writeStep))]

def writeStage (stage : Stage) : Data :=
  .record
    [("stage", .text stage.name),
      ("jobs", .list (stage.jobs.map fun job => writeJob job.name job.steps))]

/-- The condition that a branch has changed. -/
def branchFilter (branch : String) : Data :=
  .record [("branches", .record [("include", .texts [branch])])]

def write (settings : AzureSettings) (pipeline : Pipeline) : Data :=
  let filter := branchFilter settings.branch
  let body := match settings.layout with
    | .stages => ("stages", .list (pipeline.stages.map writeStage))
    | .jobs =>
      ("jobs", .list (pipeline.stages.map fun stage => writeJob stage.name stage.steps))
  .record [("trigger", filter), ("pr", filter), body]

end CiTranslate.Azure

import CiTranslate.Pipeline
import CiTranslate.Text.Blank

/-!
What is wrong with a pipeline that can nevertheless be read and written: missing, blank and
repeated names, stages without jobs, and steps without a task.
-/

namespace CiTranslate

inductive Issue where
  | noStages
  /-- The stage with this index has a blank name. -/
  | blankStage (index : Nat)
  | repeatedStage (stage : String)
  | emptyStage (stage : String)
  | blankJob (stage job : String)
  | blankTask (job step : String)
  deriving DecidableEq, Repr

def Issue.message : Issue → String
  | .noStages => "Pipeline has no stages"
  | .blankStage index => s!"Stage #{index} has an empty name"
  | .repeatedStage stage =>
    s!"Stage '{stage}' is declared more than once; jobs attach to the first declaration"
  | .emptyStage stage => s!"Stage '{stage}' has no jobs"
  | .blankJob stage job => s!"Job '{job}' in stage '{stage}' has an empty name"
  | .blankTask job step => s!"Step '{step}' in job '{job}' has an empty task"

def isBlankName (name : String) : Bool := Text.isBlankText name.toList

/-- An issue that is there under a condition. -/
def issueIf (condition : Bool) (issue : Issue) : List Issue := if condition then [issue] else []

def Step.issues (job : String) (step : Step) : List Issue :=
  issueIf (isBlankName step.task) (.blankTask job step.name)

def Job.issues (stage : String) (job : Job) : List Issue :=
  issueIf (isBlankName job.name) (.blankJob stage job.name) ++
    job.steps.flatMap (Step.issues job.name)

/-- The issues of the stage with the given index, after stages with the names `seen`. -/
def Stage.issues (seen : List String) (index : Nat) (stage : Stage) : List Issue :=
  (if isBlankName stage.name then [.blankStage index]
    else issueIf (seen.contains stage.name) (.repeatedStage stage.name)) ++
  issueIf stage.jobs.isEmpty (.emptyStage stage.name) ++
  stage.jobs.flatMap (Job.issues stage.name)

/-- The issues of stages after those with the names `seen`. -/
def issuesOfStages (seen : List String) (index : Nat) : List Stage → List Issue
  | [] => []
  | stage :: stages =>
    stage.issues seen index ++ issuesOfStages (stage.name :: seen) (index + 1) stages

/-- The issues of a pipeline, in the order of the document. -/
def Pipeline.issues (pipeline : Pipeline) : List Issue :=
  issueIf pipeline.isEmpty .noStages ++ issuesOfStages [] 0 pipeline.stages

/-- Refuses a pipeline that has issues, with all of them. -/
def Pipeline.validate (pipeline : Pipeline) : Except (List Issue) Unit :=
  if pipeline.issues.isEmpty then .ok () else .error pipeline.issues

end CiTranslate

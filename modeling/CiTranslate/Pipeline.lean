import CiTranslate.Fields
import CiTranslate.Variant

/-!
Pipelines: stages of jobs of steps, in the order in which they were declared.

A job is attached by the name of its stage. Where several stages have one name, the first
of them gets the job.
-/

namespace CiTranslate

/-- The parameters of a step. A name occurs once, in the place where it was first given. -/
structure Inputs where
  fields : Fields String := []
  distinct : fields.names.Nodup := by exact List.nodup_nil
  deriving DecidableEq, Repr

namespace Inputs

instance : Inhabited Inputs := ⟨{}⟩

def get? (key : String) (inputs : Inputs) : Option String := Fields.get? key inputs.fields

/-- Replaces the value of a parameter in its place, or appends the parameter. -/
def put (key value : String) (inputs : Inputs) : Inputs :=
  ⟨Fields.put key value inputs.fields, Fields.nodup_names_put inputs.distinct⟩

def ofList (pairs : List (String × String)) : Inputs :=
  ⟨Fields.ofList pairs, Fields.nodup_names_ofList pairs⟩

def erase (key : String) (inputs : Inputs) : Inputs :=
  ⟨Fields.erase key inputs.fields, Fields.nodup_names_erase inputs.distinct⟩

def isEmpty (inputs : Inputs) : Bool := inputs.fields.isEmpty

end Inputs

/-- The smallest piece of work. -/
structure Step where
  name : String
  /-- What is run: an action, a plugin, a provider, or a shell command. -/
  task : String
  inputs : Inputs := {}
  /-- When the step is run, in the words of the CI system. -/
  condition : Option String := none
  deriving DecidableEq, Repr, Inhabited

namespace Step

/-- The task of a step that runs a shell command. -/
def scriptTask : String := "script"

/-- The parameter that holds the command. -/
def scriptInput : String := "script"

/-- A step that runs a shell command under a name of its own. -/
def namedScript (name command : String) : Step :=
  { name, task := scriptTask, inputs := ({} : Inputs).put scriptInput command }

/-- A step that runs a shell command, which is also its name. -/
def script (command : String) : Step := namedScript command command

/-- The shell command that a step runs. -/
def command? (step : Step) : Option String :=
  if step.task = scriptTask then step.inputs.get? scriptInput else none

end Step

structure Job where
  name : String
  steps : List Step := []
  deriving DecidableEq, Repr, Inhabited

structure Stage where
  name : String
  jobs : List Job := []
  deriving DecidableEq, Repr, Inhabited

/-- The steps of all jobs of a stage. -/
def Stage.steps (stage : Stage) : List Step := stage.jobs.flatMap Job.steps

structure Pipeline where
  variant : Variant
  stages : List Stage := []
  deriving DecidableEq, Repr, Inhabited

/-- Names that stand in for missing ones. -/
structure Unnamed where
  step : String := "Unnamed Step"
  job : String := "Unnamed Job"
  stage : String := "Unnamed Stage"
  task : String := "Unknown Task"

def unnamed : Unnamed := {}

namespace Pipeline

def isEmpty (pipeline : Pipeline) : Bool := pipeline.stages.isEmpty

def addStage (stage : Stage) (pipeline : Pipeline) : Pipeline :=
  { pipeline with stages := pipeline.stages ++ [stage] }

/-- Attaches a job to the first stage of a name, and tells whether there is one. -/
def attachTo (name : String) (job : Job) : List Stage → List Stage × Bool
  | [] => ([], false)
  | stage :: stages =>
    if stage.name = name then ({ stage with jobs := stage.jobs ++ [job] } :: stages, true)
    else
      let (stages, attached) := attachTo name job stages
      (stage :: stages, attached)

/-- Attaches a job to the first stage of a name, and tells whether there is one. Without
one the pipeline stays as it is. -/
def attach (name : String) (job : Job) (pipeline : Pipeline) : Pipeline × Bool :=
  let (stages, attached) := attachTo name job pipeline.stages
  ({ pipeline with stages }, attached)

/-- The same stages in another CI system. -/
def retarget (variant : Variant) (pipeline : Pipeline) : Pipeline := { pipeline with variant }

def stageNames (pipeline : Pipeline) : List String := pipeline.stages.map Stage.name

/-- The names of stages, jobs and steps. -/
def outline (pipeline : Pipeline) : List (String × List (String × List String)) :=
  pipeline.stages.map fun stage =>
    (stage.name, stage.jobs.map fun job => (job.name, job.steps.map Step.name))

def steps (pipeline : Pipeline) : List Step := pipeline.stages.flatMap Stage.steps

end Pipeline

/-- The job that holds the steps of a stage where there are no jobs. -/
def stageJobName (stage : String) : String := stage ++ "_job"

end CiTranslate

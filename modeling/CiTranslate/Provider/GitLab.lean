import CiTranslate.Keys
import CiTranslate.Node
import CiTranslate.Pipeline
import CiTranslate.Settings

/-!
GitLab CI documents.

The stages are a list of names, and jobs stand beside them at the top, each with the name
of its stage. A job runs shell commands only; other steps are written as comments.
-/

namespace CiTranslate.GitLab

/-- Keys at the top that do not define a job. -/
def reservedKeys : List String :=
  ["default", "include", "stages", "types", "variables", "workflow", "image", "services",
    "cache", "before_script", "after_script"]

/-! ### Reading -/

/-- The stages of a document that declares none. -/
def defaultStages : List String := ["build", "test", "deploy"]

/-- The stage of a job that names none. -/
def defaultJobStage : String := "test"

/-- The lines of one item of a script. -/
def itemLines : Node → List String
  | .sequence items => items.filterMap Node.text?
  | node => node.text?.toList

/-- The lines of a script; lists in it are taken apart once. -/
def scriptLines : Option Node → List String
  | some (.scalar line) => [line]
  | some (.sequence items) => items.flatMap itemLines
  | _ => []

def readJob (name : String) (node : Node) : Job where
  name := name
  steps := (scriptLines (node.get? "script")).map Step.script

def readStageNames (document : Node) : List String :=
  match document.get? "stages" with
  | some (.sequence names) => names.filterMap Node.text?
  | _ => defaultStages

/-- Whether an entry at the top is a job. -/
def isJob (key : String) (node : Node) : Bool :=
  !reservedKeys.contains key && key.toList.head? != some '.' && node.entries?.isSome

/-- Adds the job of an entry at the top to its stage. Jobs of unknown stages are left out. -/
def addEntry (pipeline : Pipeline) (entry : String × Node) : Pipeline :=
  let (key, node) := entry
  if isJob key node then
    (pipeline.attach (node.textAtD "stage" defaultJobStage) (readJob key node)).1
  else pipeline

def read (document : Node) : Pipeline :=
  let stages := (readStageNames document).map fun name => ({ name } : Stage)
  (document.entries?.getD []).foldl addEntry { variant := .gitLabCi, stages }

/-! ### Writing -/

/-- The line of a step. -/
def line (step : Step) : String := step.command?.getD s!"# {step.name}: {step.task}"

/-- The name that the key of a job is made from. Keys with a dot in front are no jobs. -/
def keyBase (name : String) : String :=
  match name.toList.dropWhile (· == '.') with
  | [] => "job"
  | chars => String.ofList chars

/-- The jobs with the names of their stages. -/
def stagedJobs (pipeline : Pipeline) : List (String × Job) :=
  pipeline.stages.flatMap fun stage => stage.jobs.map fun job => (stage.name, job)

/-- The keys of the jobs. -/
def jobKeys (pipeline : Pipeline) : List String :=
  (Keys.allocateAll ((stagedJobs pipeline).map fun (_, job) => keyBase job.name)
    (Keys.reserving reservedKeys)).1

def writeJob (stage : String) (job : Job) : Data :=
  .record [("stage", .text stage), ("script", .texts (job.steps.map line))]

def write (settings : GitLabSettings) (pipeline : Pipeline) : Data :=
  let jobs := (stagedJobs pipeline).map fun (stage, job) => writeJob stage job
  .record
    ((settings.image.map fun image => ("image", Data.text image)).toList ++
      [("stages", .texts pipeline.stageNames)] ++ (jobKeys pipeline).zip jobs)

end CiTranslate.GitLab

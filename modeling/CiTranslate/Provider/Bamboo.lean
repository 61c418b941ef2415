import CiTranslate.InputValue
import CiTranslate.Keys
import CiTranslate.Settings

/-!
Bamboo specs.

Stages list the keys of their jobs, and jobs are defined at the top of the document. When
read, stages and jobs may also be spelled out in place.
-/

namespace CiTranslate.Bamboo

/-! ### Reading -/

/-- The lines of the scripts under a node. -/
def scriptsOf : Node → List String
  | .scalar command => [command]
  | node => node.items.filterMap Node.text?

def scriptLines : Node → List String
  | .mapping entries => ((Fields.get? "scripts" entries).map scriptsOf).getD []
  | node => scriptsOf node

def readScript (script : Node) : Step :=
  let command := "\n".intercalate (scriptLines script)
  match script.textAt? "description" with
  | some description => .namedScript description command
  | none => .script command

/-- A step that is written as the task and its parameters. -/
def readEntry (task : String) (body : Node) : Step where
  name := body.textAtD "description" task
  task := task
  inputs := .ofNode body

/-- A step that is neither a script nor a plugin. -/
def readOther (node : Node) : Step :=
  match node.textAt? "task", node.entries? with
  | some task, _ =>
    { name := node.textAtD "name" unnamed.step
      task
      inputs := .ofNodeAt "inputs" node
      condition := node.textAt? "condition" }
  | none, some [(task, body)] => readEntry task body
  | none, _ => { name := node.textAtD "name" unnamed.step, task := unnamed.task }

def readStep (node : Node) : Step :=
  match node with
  | .scalar task => { name := task, task }
  | _ =>
    match node.get? "script", node.get? "any-task" with
    | some script, _ => readScript script
    | none, some plugin =>
      let task := plugin.textAtD "plugin-key" unnamed.task
      { name := plugin.textAtD "description" task
        task
        inputs := .ofNodeAt "configuration" plugin }
    | none, none => readOther node

/-- The steps of a job. -/
def readTasks (definition : Node) : List Step :=
  match definition.itemsAt "tasks" with
  | [] => (definition.itemsAt "steps").map readStep
  | tasks => tasks.map readStep

/-- Reads a job in a stage: a key, whose definition is at the top, or the job itself. -/
def readJob (document entry : Node) : Job :=
  match entry with
  | .scalar key =>
    { name := key, steps := ((document.get? key).map readTasks).getD [] }
  | _ =>
    { name := (entry.firstTextAt? ["displayName", "name", "key"]).getD unnamed.job
      steps := readTasks entry }

/-- The name of a stage, and the node that lists its jobs. -/
def stageEntry : Node → String × Node
  | .scalar name => (name, .null)
  | .mapping entries =>
    let node := Node.mapping entries
    match node.textAt? "name", entries with
    | some name, _ => (name, node)
    | none, [(name, body)] => (name, body)
    | none, _ => (unnamed.stage, node)
  | _ => (unnamed.stage, .null)

def readStage (document entry : Node) : Stage :=
  let (name, body) := stageEntry entry
  { name, jobs := (body.itemsAt "jobs").map (readJob document) }

def read (document : Node) : Pipeline where
  variant := .bamboo
  stages :=
    let stages := match document.itemsAt "stages" with
      | [] => ((document.get? "plan").getD .null).itemsAt "stages"
      | stages => stages
    stages.map (readStage document)

/-! ### Writing -/

/-- Keys at the top that a job may not have. -/
def reservedKeys : List String :=
  ["version", "plan", "stages", "variables", "repositories", "triggers"]

def writeStep (step : Step) : Data :=
  match step.command? with
  | some command =>
    .record [("script", .recordOf
      [("description", if step.name = command then none else some (.text step.name)),
        ("scripts", some (.texts [command]))])]
  | none =>
    .record [("any-task", .recordOf
      [("plugin-key", some (.text step.task)), ("description", some (.text step.name)),
        ("configuration", step.inputs.toData?)])]

def writeJob (job : Job) : Data := .record [("tasks", .list (job.steps.map writeStep))]

/-- The jobs of all stages. -/
def allJobs (pipeline : Pipeline) : List Job := pipeline.stages.flatMap Stage.jobs

/-- The keys of the jobs. -/
def jobKeys (pipeline : Pipeline) : List String :=
  (Keys.allocateAll ((allJobs pipeline).map Job.name) (Keys.reserving reservedKeys)).1

/-- The stages with the keys of their jobs, which are given for all stages in order. -/
def writeStages : List String → List Stage → List Data
  | _, [] => []
  | keys, stage :: stages =>
    .record [(stage.name, .record [("jobs", .texts (keys.take stage.jobs.length))])] ::
      writeStages (keys.drop stage.jobs.length) stages

def write (settings : BambooSettings) (pipeline : Pipeline) : Data :=
  let keys := jobKeys pipeline
  let plan : Data := .record
    [("project-key", .text settings.projectKey), ("key", .text settings.planKey),
      ("name", .text settings.planName)]
  .record
    ([("version", .int 2), ("plan", plan), ("stages", .list (writeStages keys pipeline.stages))] ++
      keys.zip ((allJobs pipeline).map writeJob))

end CiTranslate.Bamboo

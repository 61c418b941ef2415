import CiTranslate.Error
import CiTranslate.Groovy.Stage
import CiTranslate.InputValue
import CiTranslate.Settings

/-!
Jenkins pipelines: Groovy scripts, and documents of the same structure.

There are no jobs. The steps of a stage are read into one job named after it.
-/

namespace CiTranslate.Jenkins

def stageOf (name : String) (steps : List Step) : Stage where
  name := name
  jobs := [{ name := stageJobName name, steps }]

/-! ### Reading scripts -/

def readScript (script : String) : Except Error Pipeline :=
  match Groovy.stages script.toList with
  | [] => .error (.missingField "stage" "Jenkins pipeline script (no stages found)")
  | stages => .ok
      { variant := .jenkins, stages := stages.map fun stage => stageOf stage.name stage.steps }

/-! ### Reading documents -/

def readStep (node : Node) : Step :=
  match node with
  | .scalar command => .script command
  | _ =>
    match node.get? "sh" with
    | some (.scalar command) => .namedScript (node.textAtD "name" command) command
    | some (.mapping call) =>
      let call := Node.mapping call
      let command := call.textAtD "script" ""
      .namedScript (((node.textAt? "name").or (call.textAt? "label")).getD command) command
    | _ =>
      { name := node.textAtD "name" unnamed.step
        task := node.textAtD "task" unnamed.task
        inputs := .ofNodeAt "inputs" node
        condition := node.textAt? "condition" }

/-- Where documents lack a field. -/
def context : String := "Jenkins declarative pipeline"

/-- Reads the stage with the given number, counted from one. -/
def readStage (number : Nat) (node : Node) : Except Error Stage :=
  let missing : Error := .missingField "name" s!"stage {number} of {context}"
  match node.textAt? "name" with
  | none => .error missing
  | some name =>
    if name.isEmpty then .error missing
    else .ok (stageOf name ((node.itemsAt "steps").map readStep))

/-- Reads stages, of which the first has the given number. -/
def readStages (number : Nat) : List Node → Except Error (List Stage)
  | [] => .ok []
  | node :: nodes =>
    match readStage number node with
    | .error error => .error error
    | .ok stage => (readStages (number + 1) nodes).map (stage :: ·)

def readDocument (document : Node) : Except Error Pipeline :=
  match document.get? "pipeline" with
  | some (.mapping (entry :: entries)) =>
    match (Node.mapping (entry :: entries)).itemsAt "stages" with
    | [] => .error (.missingField "stages" context)
    | nodes => (readStages 1 nodes).map fun stages => { variant := .jenkins, stages }
  | _ => .error (.missingField "pipeline" context)

/-! ### Writing scripts -/

/-- A text as a literal of a script. -/
def literal (text : String) : String := String.ofList (Groovy.quote text.toList)

/-- A line of a script, with four blanks for each level. -/
def line (depth : Nat) (text : String) : String :=
  String.ofList (List.replicate (4 * depth) ' ') ++ text ++ "\n"

def agentLine (settings : JenkinsSettings) : String :=
  match settings.agent with
  | some label =>
    if label = "any" then "agent any" else s!"agent \x7b label {literal label} \x7d"
  | none => "agent any"

/-- The name in a comment, on one line. -/
def oneLine (name : String) : String :=
  String.ofList (name.toList.map fun c => if c == '\n' then ' ' else c)

/-- The line of a step. A step without a shell command becomes a comment. -/
def stepLine (step : Step) : String :=
  match step.command? with
  | some command =>
    if step.name = command then s!"sh {literal command}"
    else s!"sh(script: {literal command}, label: {literal step.name})"
  | none => s!"// {oneLine step.name}: {step.task}"

def writeStage (stage : Stage) : String :=
  let steps := match stage.steps with
    | [] => ["echo 'No steps defined'"]
    | steps => steps.map stepLine
  line 2 s!"stage({literal stage.name}) \x7b" ++ line 3 "steps \x7b" ++
    String.join (steps.map (line 4)) ++ line 3 "\x7d" ++ line 2 "\x7d"

def write (settings : JenkinsSettings) (pipeline : Pipeline) : String :=
  "pipeline \x7b\n" ++ line 1 (agentLine settings) ++ line 1 "stages \x7b" ++
    String.join (pipeline.stages.map writeStage) ++ line 1 "\x7d" ++ "\x7d\n"

end CiTranslate.Jenkins

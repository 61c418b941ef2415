import CiTranslate.Node.Decode
import CiTranslate.Payload
import CiTranslate.Provider.Azure
import CiTranslate.Provider.Bamboo
import CiTranslate.Provider.CircleCi
import CiTranslate.Provider.CodePipeline
import CiTranslate.Provider.GitHub
import CiTranslate.Provider.GitLab
import CiTranslate.Provider.Jenkins

/-!
What a pipeline can be made from, and the pipeline of a text in a dialect.
-/

namespace CiTranslate

inductive Source where
  | pipeline (pipeline : Pipeline)
  | document (root : Node)
  | script (text : String)

/-- Reads a payload up to the structure of its format. -/
def Source.ofPayload : Payload → Except Error Source
  | .yaml text => (Node.decodeYaml text).map .document
  | .json text => (Node.decodeJson text).map .document
  | .script text => .ok (.script text)

namespace Pipeline

/-- The pipeline of a document. -/
def ofDocument (dialect : Dialect) (document : Node) : Except Error Pipeline :=
  match dialect with
  | .azurePipelines => .ok (Azure.read document)
  | .gitlabCi => .ok (GitLab.read document)
  | .githubActions => .ok (GitHub.read document)
  | .jenkinsfileScripted => .error (.misfit .scriptOnly)
  | .jenkinsfileDeclarative => Jenkins.readDocument document
  | .bamboo => .ok (Bamboo.read document)
  | .circleci => .ok (CircleCi.read document)
  | .codepipeline => .ok (CodePipeline.read document)

/-- The pipeline of a script. -/
def ofScript (dialect : Dialect) (script : String) : Except Error Pipeline :=
  if dialect.isScript then Jenkins.readScript script
  else .error (.misfit (.documentOnly dialect))

/-- The pipeline of a source, for the CI system of a dialect. A pipeline has to be for that
system already, and stays as it is. -/
def ofSource (dialect : Dialect) : Source → Except Error Pipeline
  | .pipeline pipeline =>
    if pipeline.variant = dialect.variant then .ok pipeline
    else .error (.variantMismatch dialect.variant pipeline.variant)
  | .document root => ofDocument dialect root
  | .script text => ofScript dialect text

/-- The pipeline of a text. -/
def parse (dialect : Dialect) (text : String) : Except Error Pipeline :=
  match Payload.ofText dialect text with
  | .error error => .error error
  | .ok payload =>
    match Source.ofPayload payload with
    | .error error => .error error
    | .ok source => ofSource dialect source

/-- The pipeline of a text in the dialect of a tag. -/
def parseTagged (tag text : String) : Except Error Pipeline :=
  (Dialect.ofTag tag).bind fun dialect => parse dialect text

end Pipeline

end CiTranslate

import CiTranslate.Provider.Azure
import CiTranslate.Provider.Bamboo
import CiTranslate.Provider.CircleCi
import CiTranslate.Provider.CodePipeline
import CiTranslate.Provider.GitHub
import CiTranslate.Provider.GitLab
import CiTranslate.Provider.Jenkins
import CiTranslate.Yaml.Writer

/-!
Emitters: how pipelines are written in one format. There is one for every CI system, made
from its settings. An emitter never looks at the variant of a pipeline.
-/

namespace CiTranslate

/-- What is told of an emitter. -/
structure EmitterInfo where
  format : String
  extension : String
  description : String
  deriving DecidableEq, Repr

/-- A way to write pipelines. -/
structure Emitter where
  /-- The name of the format. -/
  format : String
  /-- The extension of its files, with the dot. -/
  extension : String
  description : String := "CI configuration emitter"
  /-- The CI system that runs what is written. -/
  variant : Variant
  /-- Checks that a pipeline can be written. -/
  validate : Pipeline → Except Error Unit := fun _ => .ok ()
  emit : Pipeline → Except Error String

namespace Emitter

def info (emitter : Emitter) : EmitterInfo where
  format := emitter.format
  extension := emitter.extension
  description := emitter.description

/-- Writes a pipeline that can be written. -/
def write (emitter : Emitter) (pipeline : Pipeline) : Except Error String :=
  match emitter.validate pipeline with
  | .ok () => emitter.emit pipeline
  | .error error => .error error

def azure (settings : AzureSettings) : Emitter where
  format := "azure-pipelines"
  extension := ".yaml"
  description := "Azure Pipelines YAML"
  variant := .azureDevOps
  emit pipeline := .ok (Yaml.write (Azure.write settings pipeline))

def github (settings : GitHubSettings) : Emitter where
  format := "github-actions"
  extension := ".yaml"
  description := "GitHub Actions workflow YAML"
  variant := .gitHubActions
  emit pipeline := .ok (Yaml.write (GitHub.write settings pipeline))

def gitlab (settings : GitLabSettings) : Emitter where
  format := "gitlab-ci"
  extension := ".yaml"
  description := "GitLab CI YAML"
  variant := .gitLabCi
  emit pipeline := .ok (Yaml.write (GitLab.write settings pipeline))

def jenkins (settings : JenkinsSettings) : Emitter where
  format := "jenkinsfile-declarative"
  extension := ".groovy"
  description := "Declarative Jenkinsfile"
  variant := .jenkins
  emit pipeline := .ok (Jenkins.write settings pipeline)

def bamboo (settings : BambooSettings) : Emitter where
  format := "bamboo"
  extension := ".yaml"
  description := "Bamboo Specs YAML"
  variant := .bamboo
  emit pipeline := .ok (Yaml.write (Bamboo.write settings pipeline))

def circleci (settings : CircleCiSettings) : Emitter where
  format := "circleci"
  extension := ".yaml"
  description := "CircleCI config YAML"
  variant := .circleCi
  emit pipeline := .ok (Yaml.write (CircleCi.write settings pipeline))

def codepipeline : Emitter where
  format := "codepipeline"
  extension := ".json"
  description := "AWS CodePipeline JSON"
  variant := .aws
  validate := CodePipeline.validate
  emit pipeline :=
    match CodePipeline.validate pipeline with
    | .ok () => .ok (Json.writePretty (CodePipeline.write pipeline))
    | .error error => .error error

end Emitter

/-- The emitter for a CI system. -/
def Settings.emitter (settings : Settings) : Variant → Emitter
  | .azureDevOps => .azure settings.azure
  | .gitHubActions => .github settings.github
  | .gitLabCi => .gitlab settings.gitlab
  | .jenkins => .jenkins settings.jenkins
  | .bamboo => .bamboo settings.bamboo
  | .circleCi => .circleci settings.circleci
  | .aws => .codepipeline

/-- The text of a pipeline for its own CI system. -/
def Pipeline.toText (settings : Settings) (pipeline : Pipeline) : Except Error String :=
  (settings.emitter pipeline.variant).write pipeline

end CiTranslate

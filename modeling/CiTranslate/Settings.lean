/-!
Settings for what pipelines do not say but documents of a CI system have to.
-/

namespace CiTranslate

/-- Whether an Azure document has stages of jobs, or one job for each stage. -/
inductive AzureLayout where
  | stages
  | jobs
  deriving DecidableEq, Repr, Inhabited

namespace AzureLayout

def all : List AzureLayout := [.stages, .jobs]

def name : AzureLayout → String
  | .stages => "stages"
  | .jobs => "jobs"

def ofName? (name : String) : Option AzureLayout := all.find? (·.name == name)

end AzureLayout

structure AzureSettings where
  layout : AzureLayout := .stages
  /-- The branch whose changes start the pipeline. -/
  branch : String := "main"
  deriving DecidableEq, Repr, Inhabited

structure GitHubSettings where
  workflowName : String := "CI"
  /-- The runner of all jobs. -/
  runsOn : String := "ubuntu-latest"
  deriving DecidableEq, Repr, Inhabited

structure GitLabSettings where
  /-- The image of all jobs. -/
  image : Option String := none
  deriving DecidableEq, Repr, Inhabited

structure JenkinsSettings where
  /-- The label of the agent; any agent without one. -/
  agent : Option String := none
  deriving DecidableEq, Repr, Inhabited

structure BambooSettings where
  projectKey : String := "PROJ"
  planKey : String := "PLAN"
  planName : String := "Pipeline"
  deriving DecidableEq, Repr, Inhabited

structure CircleCiSettings where
  /-- The image of all jobs. -/
  image : String := "cimg/base:stable"
  workflow : String := "main"
  deriving DecidableEq, Repr, Inhabited

/-- The settings for all CI systems; CodePipeline has none. -/
structure Settings where
  azure : AzureSettings := {}
  github : GitHubSettings := {}
  gitlab : GitLabSettings := {}
  jenkins : JenkinsSettings := {}
  bamboo : BambooSettings := {}
  circleci : CircleCiSettings := {}
  deriving DecidableEq, Repr, Inhabited

end CiTranslate

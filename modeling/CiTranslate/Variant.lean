/-!
The CI systems whose pipelines are read and written.
-/

namespace CiTranslate

/-- A CI system. The order of the cases is the order in which they are listed. -/
inductive Variant where
  | azureDevOps
  | gitHubActions
  | gitLabCi
  | jenkins
  | bamboo
  | circleCi
  | aws
  deriving DecidableEq, Repr, Inhabited

namespace Variant

def all : List Variant :=
  [.azureDevOps, .gitHubActions, .gitLabCi, .jenkins, .bamboo, .circleCi, .aws]

theorem mem_all (variant : Variant) : variant ∈ all := by
  cases variant <;> simp [all]

/-- The name in pipeline data. -/
def name : Variant → String
  | .azureDevOps => "azure-devops"
  | .gitHubActions => "github-actions"
  | .gitLabCi => "gitlab-ci"
  | .jenkins => "jenkins"
  | .bamboo => "bamboo"
  | .circleCi => "circleci"
  | .aws => "aws"

/-- The name shown to people. -/
def displayName : Variant → String
  | .azureDevOps => "Azure DevOps"
  | .gitHubActions => "GitHub Actions"
  | .gitLabCi => "GitLab CI"
  | .jenkins => "Jenkins"
  | .bamboo => "Bamboo"
  | .circleCi => "CircleCI"
  | .aws => "AWS CodePipeline"

def ofName? (name : String) : Option Variant := all.find? (·.name == name)

theorem ofName?_name (variant : Variant) : ofName? variant.name = some variant := by
  cases variant <;> rfl

end Variant

end CiTranslate

import CiTranslate.Text.Blank
import CiTranslate.Variant

/-!
The dialects in which pipelines are written. There is one for every CI system, except that
Jenkins has two.
-/

namespace CiTranslate

/-- A dialect. The order of the cases is that of the table of dialects. -/
inductive Dialect where
  | azurePipelines
  | gitlabCi
  | githubActions
  | jenkinsfileScripted
  | jenkinsfileDeclarative
  | bamboo
  | circleci
  | codepipeline
  deriving DecidableEq, Repr, Inhabited

/-- What is known of a dialect besides its grammar. -/
structure DialectInfo where
  tag : String
  /-- Words that all occur in a text of the dialect, in a strict reading. -/
  keywords : List String
  /-- The extension of its files, with the dot. -/
  extension : String
  /-- The name under which its syntax is highlighted. -/
  language : String
  deriving DecidableEq, Repr

namespace Dialect

def all : List Dialect :=
  [.azurePipelines, .gitlabCi, .githubActions, .jenkinsfileScripted, .jenkinsfileDeclarative,
    .bamboo, .circleci, .codepipeline]

theorem mem_all (dialect : Dialect) : dialect ∈ all := by
  cases dialect <;> simp [all]

def info : Dialect → DialectInfo
  | .azurePipelines =>
    ⟨"azure-pipelines", ["trigger", "stages", "pool", "jobs"], ".yaml", "yaml"⟩
  | .gitlabCi => ⟨"gitlab-ci", ["stages", "jobs", "gitlab"], ".yaml", "yaml"⟩
  | .githubActions => ⟨"github-actions", ["jobs", "runs-on", "steps"], ".yaml", "yaml"⟩
  | .jenkinsfileScripted =>
    ⟨"jenkinsfile-scripted", ["pipeline", "agent", "stages"], ".groovy", "groovy"⟩
  | .jenkinsfileDeclarative =>
    ⟨"jenkinsfile-declarative", ["pipeline", "stages", "agent"], ".groovy", "groovy"⟩
  | .bamboo => ⟨"bamboo", ["plan", "stages"], ".yaml", "yaml"⟩
  | .circleci => ⟨"circleci", ["workflows", "jobs"], ".yaml", "yaml"⟩
  | .codepipeline => ⟨"codepipeline", ["aws", "codepipeline"], ".yaml", "yaml"⟩

def tag (dialect : Dialect) : String := dialect.info.tag

/-- The CI system that runs pipelines of the dialect. -/
def variant : Dialect → Variant
  | .azurePipelines => .azureDevOps
  | .gitlabCi => .gitLabCi
  | .githubActions => .gitHubActions
  | .jenkinsfileScripted => .jenkins
  | .jenkinsfileDeclarative => .jenkins
  | .bamboo => .bamboo
  | .circleci => .circleCi
  | .codepipeline => .aws

/-- Whether pipelines of the dialect may be Groovy scripts. -/
def isScript : Dialect → Bool
  | .jenkinsfileScripted => true
  | .jenkinsfileDeclarative => true
  | _ => false

/-- The dialect with a tag, in any case and between any blanks. -/
def ofTag? (text : String) : Option Dialect :=
  let wanted := String.ofList ((Text.trim text.toList).map Char.toLower)
  all.find? (·.tag == wanted)

end Dialect

/-- The dialect in which pipelines of a CI system are written. -/
def Variant.defaultDialect : Variant → Dialect
  | .azureDevOps => .azurePipelines
  | .gitHubActions => .githubActions
  | .gitLabCi => .gitlabCi
  | .jenkins => .jenkinsfileDeclarative
  | .bamboo => .bamboo
  | .circleCi => .circleci
  | .aws => .codepipeline

theorem Variant.variant_defaultDialect (variant : Variant) :
    variant.defaultDialect.variant = variant := by
  cases variant <;> rfl

end CiTranslate

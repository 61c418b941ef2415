import CiTranslate.Dialect
import CiTranslate.Text.AnyCase
import CiTranslate.Text.Lowercase
import CiTranslate.Text.Search

/-!
Guesses of a text's dialect from the words that occur in it.

The permissive rules look for few words each and are tried in order. The strict rule takes
the first dialect of the table all of whose keywords occur, in any case.
-/

namespace CiTranslate

/-- Which rules are used. -/
inductive Policy where
  | permissive
  | strict
  deriving DecidableEq, Repr, Inhabited

namespace Policy

def all : List Policy := [.permissive, .strict]

def name : Policy → String
  | .permissive => "permissive"
  | .strict => "strict"

def ofName? (name : String) : Option Policy := all.find? (·.name == name)

end Policy

/-- A guess, with the file extension and the language for highlighting. -/
structure Classification where
  dialect? : Option Dialect
  extension : String
  language : String
  deriving DecidableEq, Repr

namespace Classification

def unknown : Classification := ⟨none, ".txt", "text"⟩

/-- A dialect whose text is taken for YAML. -/
def yaml (dialect : Dialect) : Classification := ⟨some dialect, ".yaml", "yaml"⟩

/-- A dialect with the extension and the language of the table. -/
def ofTable (dialect : Dialect) : Classification :=
  ⟨some dialect, dialect.info.extension, dialect.info.language⟩

def tag (classification : Classification) : String :=
  (classification.dialect?.map Dialect.tag).getD "unknown"

def isKnown (classification : Classification) : Bool := classification.dialect?.isSome

/-- Whether a text starts with the two words of the AWS service, with blanks between them. -/
def startsWithService (text : List Char) : Bool :=
  match Text.afterWord? "aws".toList text with
  | none => false
  | some rest =>
    rest.head?.any Text.isBlank &&
      (Text.afterWord? "codepipeline".toList (Text.trimStart rest)).isSome

/-- Whether the AWS service is named somewhere. -/
def namesService : List Char → Bool
  | [] => false
  | c :: text => startsWithService (c :: text) || namesService text

/-- The words of a deployment, which is guessed to belong to the AWS service. -/
def isDeployment (has : String → Bool) : Bool :=
  has "apiVersion: apps/v1" && has "kind: Deployment" && has "pipeline" && has "stages"

/-- The last rule. -/
def fallback (has : String → Bool) : Classification :=
  if isDeployment has then yaml .codepipeline else unknown

/-- The permissive rules. Jobs and stages together exclude all rules but the last, also
when no provider is named. -/
def permissive (text : List Char) : Classification :=
  let has (word : String) := Text.contains word.toList text
  if namesService text then yaml .codepipeline
  else if has "jobs" && has "stages" then
    if has "gitlab-ci" then yaml .gitlabCi
    else if has "github" then yaml .githubActions
    else fallback has
  else if has "pipeline" && has "stages" then
    if has "agent" then ofTable .jenkinsfileScripted else yaml .jenkinsfileDeclarative
  else if has "plan" && has "stages" then yaml .bamboo
  else if has "workflows" && has "jobs" then yaml .circleci
  else if has "trigger" && has "pool" && has "steps" then yaml .azurePipelines
  else fallback has

/-- Whether all keywords of a dialect occur in a text of lower case. -/
def hasKeywords (text : List Char) (dialect : Dialect) : Bool :=
  dialect.info.keywords.all fun word => Text.contains word.toList text

/-- The strict rule. -/
def strict (text : List Char) : Classification :=
  match Dialect.all.find? (hasKeywords (Text.lowercase text)) with
  | some dialect => ofTable dialect
  | none => unknown

/-- The guess for a text. -/
def ofText (policy : Policy) (text : String) : Classification :=
  match policy with
  | .permissive => permissive text.toList
  | .strict => strict text.toList

end Classification

end CiTranslate

import CiTranslate.Dialect
import CiTranslate.Json.Fault
import CiTranslate.Yaml.Error

/-!
Why a text is no pipeline, or a pipeline cannot be written.
-/

namespace CiTranslate

/-- A text that is not in its format. -/
inductive DecodeError where
  | yaml (error : Yaml.Error)
  | json (error : Json.Error)

namespace DecodeError

def format : DecodeError → String
  | .yaml _ => "YAML"
  | .json _ => "JSON"

def detail : DecodeError → String
  | .yaml error => error.message
  | .json error => error.message

/-- The line, counted from one, where the error has a place. -/
def line? : DecodeError → Option Nat
  | .yaml error => error.mark?.map (·.line + 1)
  | .json error => some error.place.line

/-- The column, counted from one. A fault at a line end that was just read has none. -/
def column? : DecodeError → Option Nat
  | .yaml error => error.mark?.map (·.column + 1)
  | .json error => if error.place.column = 0 then none else some error.place.column

/-- The place, as part of a sentence. -/
def placePhrase (error : DecodeError) : String :=
  match error.line?, error.column? with
  | some line, some column => s!" on line {line}, column {column}"
  | some line, none => s!" on line {line}"
  | none, _ => ""

def message (error : DecodeError) : String :=
  s!"{error.format} parsing error{error.placePhrase}: {error.detail}"

end DecodeError

/-- A document or pipeline of the wrong structure. -/
inductive Misfit where
  | rootNotMapping
  /-- The scripted Jenkins dialect has no documents. -/
  | scriptOnly
  | documentOnly (dialect : Dialect)
  | noStages
  | noActions (stage : String)
  deriving DecidableEq, Repr

def Misfit.message : Misfit → String
  | .rootNotMapping => "document root must be a mapping"
  | .scriptOnly => s!"{Dialect.jenkinsfileScripted.tag} input must be Groovy script text"
  | .documentOnly dialect => s!"{dialect.tag} input must be a YAML or JSON document"
  | .noStages => "no stages in pipeline"
  | .noActions stage => s!"no actions in stage {stage}"

/-- Why reading or writing a pipeline failed. -/
inductive Error where
  | emptyInput
  | decode (error : DecodeError)
  | missingField (field context : String)
  | unsupportedDialect (tag : String)
  | misfit (cause : Misfit)
  | variantMismatch (expected found : Variant)

def Error.message : Error → String
  | .emptyInput => "Empty pipeline input"
  | .decode error => error.message
  | .missingField field context => s!"Missing required field '{field}' in {context}"
  | .unsupportedDialect tag => s!"Unsupported pipeline type: {tag}"
  | .misfit cause => s!"Structural violation: {cause.message}"
  | .variantMismatch expected found =>
    s!"Pipeline variant mismatch: expected {expected.displayName}, found {found.displayName}"

/-- The dialect with a tag. -/
def Dialect.ofTag (tag : String) : Except Error Dialect :=
  match Dialect.ofTag? tag with
  | some dialect => .ok dialect
  | none => .error (.unsupportedDialect tag)

end CiTranslate

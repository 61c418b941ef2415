import CiTranslate.Shape
import CiTranslate.Yaml.Fault
import CiTranslate.Yaml.Value

/-!
What can be wrong with a YAML document: its form, the names of its anchors, its depth and
size, and single values. Errors in values carry the path of the value.
-/

namespace CiTranslate.Yaml

/-- The way from the root of a document to a value. -/
inductive Path where
  | root
  | field (parent : Path) (key : String)
  | item (parent : Path) (index : Nat)
  /-- The value of a key that is not a scalar. -/
  | unnamed (parent : Path)
  deriving DecidableEq, Repr

/-- The path as messages show it. A field of the root is its key alone. -/
def Path.text : Path → String
  | .root => "."
  | .field .root key => key
  | .field parent key => parent.text ++ "." ++ key
  | .item parent index => parent.text ++ s!"[{index}]"
  | .unnamed .root => "?"
  | .unnamed parent => parent.text ++ ".?"

/-- What can be wrong with a single value. -/
inductive Cause where
  /-- A scalar that is not what its tag says, or an integer that is too large. -/
  | mismatch (cause : Mismatch)
  | duplicateKey (key : Value)

def Cause.message : Cause → String
  | .mismatch cause => cause.message
  | .duplicateKey key => "duplicate entry " ++ key.duplicatePhrase

inductive Error where
  | form (fault : Fault)
  | unknownAnchor (mark : Mark)
  | tooDeep (mark : Mark)
  | value (cause : Cause) (path : Path) (mark : Mark)
  /-- Aliases were followed more than a hundred times for each event. -/
  | tooManyAliases
  | severalDocuments
  | noDocument

namespace Error

/-- Where the document is wrong, as far as there is a place. -/
def mark? : Error → Option Mark
  | .form fault => some fault.mark
  | .unknownAnchor mark => some mark
  | .tooDeep mark => some mark
  | .value _ _ mark => some mark
  | .tooManyAliases => none
  | .severalDocuments => none
  | .noDocument => none

def message : Error → String
  | .form fault => fault.message
  | .unknownAnchor mark => "unknown anchor" ++ mark.phrase
  | .tooDeep mark => "recursion limit exceeded" ++ mark.phrase
  | .value cause path mark =>
    let path := path.text
    (if path = "." then "" else path ++ ": ") ++ cause.message ++ mark.phrase
  | .tooManyAliases => "repetition limit exceeded"
  | .severalDocuments =>
    "deserializing from YAML containing more than one document is not supported"
  | .noDocument => "EOF while parsing a value"

end Error

end CiTranslate.Yaml

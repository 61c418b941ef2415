import CiTranslate.Yaml.Scalar
import CiTranslate.Text.Visible

/-!
Values of YAML documents, and when two of them are the same key of a mapping.
-/

namespace CiTranslate.Yaml

/-- A value. Local tags are kept; the keys of a mapping are values, too. -/
inductive Value where
  | null
  | bool (value : Bool)
  | int (value : Int)
  | float (value : Float)
  | text (value : String)
  | sequence (items : List Value)
  | mapping (entries : List (Value × Value))
  | tagged (tag : List Char) (value : Value)
  deriving Inhabited

/-- A tag without an exclamation mark at its start, unless that is all of it. -/
def bareTag : List Char → List Char
  | '!' :: c :: tag => c :: tag
  | tag => tag

namespace Value

/-- Doubles are the same when they are equal or both no number. -/
def sameFloat (x y : Float) : Bool := (x.isNaN && y.isNaN) || x == y

mutual

/-- Whether two values are the same. The entries of mappings may come in any order. -/
def same : Value → Value → Bool
  | .null, .null => true
  | .bool x, .bool y => x == y
  | .int x, .int y => x == y
  | .float x, .float y => sameFloat x y
  | .text x, .text y => x == y
  | .sequence xs, .sequence ys => sameItems xs ys
  | .mapping xs, .mapping ys => xs.length == ys.length && entriesIn xs ys
  | .tagged s x, .tagged t y => bareTag s == bareTag t && same x y
  | _, _ => false

def sameItems : List Value → List Value → Bool
  | [], [] => true
  | x :: xs, y :: ys => same x y && sameItems xs ys
  | _, _ => false

/-- Whether every entry is also one of `ys`. -/
def entriesIn : List (Value × Value) → List (Value × Value) → Bool
  | [], _ => true
  | (key, value) :: xs, ys =>
    (ys.any fun entry => same key entry.1 && same value entry.2) && entriesIn xs ys

end

/-- The text of a number. -/
def floatText (x : Float) : String := doubles.write x

/-- A key that a mapping has twice, as the end of a sentence. -/
def duplicatePhrase : Value → String
  | .null => "with null key"
  | .bool value => s!"with key `{value}`"
  | .int value => s!"with key {value}"
  | .float value => s!"with key {floatText value}"
  | .text value => "with key " ++ Text.visible value
  | _ => "in YAML map"

end Value

end CiTranslate.Yaml

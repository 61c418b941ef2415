import CiTranslate.Data
import CiTranslate.Text.Visible

/-!
Shapes: what a typed reader expects at a place of a document, as a value. A document that
is read against a shape comes back in full form: records have all their fields, in the
order of the shape, and absent ones hold their defaults.

`Mismatch` is the ways in which a document can miss its shape. The readers of single
formats add the position, where they know one.
-/

namespace CiTranslate

/-- What is expected at a place. -/
inductive Shape where
  | text
  | optional (inner : Shape)
  /-- One of the listed names. -/
  | choice (names : List String)
  /-- A record of texts with any field names. -/
  | texts
  | list (item : Shape)
  /-- A record with fixed fields; one with no default has to be present. A closed record
  refuses other fields, an open one passes over them. -/
  | record (name : String) (closed : Bool) (fields : List (String × Shape × Option Data))

/-- What was found instead. -/
inductive Found where
  | null
  | boolean (value : Bool)
  | integer (value : Int)
  /-- An integer of more than 64 bits, and the name of the type that holds it. -/
  | wideInteger (value : Int) (width : String)
  | float (text : String)
  | text (value : String)
  | sequence
  | map
  deriving DecidableEq, Repr

def Found.phrase : Found → String
  | .null => "null"
  | .boolean value => s!"boolean `{value}`"
  | .integer value => s!"integer `{value}`"
  | .wideInteger value width => s!"integer `{value}` as {width}"
  | .float digits => s!"floating point `{digits}`"
  | .text value => "string " ++ Text.visible value
  | .sequence => "sequence"
  | .map => "map"

/-- The ways in which a document can miss its shape. -/
inductive Mismatch where
  | type (found : Found) (expected : String)
  | value (found : Found) (expected : String)
  | unknownChoice (name : String) (known : List String)
  | unknownField (name : String) (known : List String)
  | missingField (name : String)
  | duplicateField (name : String)
  | length (count : Nat) (expected : String)
  deriving DecidableEq, Repr

/-- The known names, as the end of a sentence. -/
def oneOf : List String → String
  | [] => "nothing"
  | [name] => s!"`{name}`"
  | [first, second] => s!"`{first}` or `{second}`"
  | names => "one of " ++ ", ".intercalate (names.map fun name => s!"`{name}`")

def Mismatch.message : Mismatch → String
  | .type found expected => s!"invalid type: {found.phrase}, expected {expected}"
  | .value found expected => s!"invalid value: {found.phrase}, expected {expected}"
  | .unknownChoice name known => s!"unknown variant `{name}`, expected {oneOf known}"
  | .unknownField name known => s!"unknown field `{name}`, expected {oneOf known}"
  | .missingField name => s!"missing field `{name}`"
  | .duplicateField name => s!"duplicate field `{name}`"
  | .length count expected => s!"invalid length {count}, expected {expected}"

namespace Shape

/-- How a shape is named where something else was found. -/
def expected : Shape → String
  | .text => "a string"
  | .optional inner => inner.expected
  | .choice _ => "string or map"
  | .texts => "a map"
  | .list _ => "a sequence"
  | .record name _ _ => "struct " ++ name

/-- How a record is named where a list of its fields was found to be too short. -/
def expectedLength (name : String) (count : Nat) : String :=
  if count = 1 then s!"struct {name} with 1 element" else s!"struct {name} with {count} elements"

/-- The full form of a record: each field as found, or else its default. -/
def fill (found : List (String × Data)) :
    List (String × Shape × Option Data) → Except Mismatch (List (String × Data))
  | [] => .ok []
  | (key, _, default) :: fields =>
    match Fields.get? key found, default with
    | some value, _ => (fill found fields).map ((key, value) :: ·)
    | none, some value => (fill found fields).map ((key, value) :: ·)
    | none, none => .error (.missingField key)

/-- The fields that a list of values leaves out, from the field with number `index` on. -/
def fillRest (name : String) (total index : Nat) :
    List (String × Shape × Option Data) → Except Mismatch (List (String × Data))
  | [] => .ok []
  | (key, _, some value) :: fields => (fillRest name total (index + 1) fields).map ((key, value) :: ·)
  | (_, _, none) :: _ => .error (.length index (expectedLength name total))

end Shape

end CiTranslate

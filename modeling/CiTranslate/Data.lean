import CiTranslate.Fields

/-!
Structured data as JSON and YAML documents hold it. Every pipeline document that is
written is a value of this type first; the formats only decide how it is spelled.
-/

namespace CiTranslate

/-- A document: scalars, lists and records with ordered fields. -/
inductive Data where
  | null
  | bool (value : Bool)
  | int (value : Int)
  | float (value : Float)
  | text (value : String)
  | list (items : List Data)
  | record (fields : List (String × Data))
  deriving Inhabited, Repr

namespace Data

/-- The field of a record. -/
def field? (key : String) : Data → Option Data
  | .record fields => Fields.get? key fields
  | _ => none

def text? : Data → Option String
  | .text value => some value
  | _ => none

def bool? : Data → Option Bool
  | .bool value => some value
  | _ => none

/-- The items of a list; anything else has none. -/
def items : Data → List Data
  | .list items => items
  | _ => []

def isNull : Data → Bool
  | .null => true
  | _ => false

/-- The text in a field of a record. -/
def textField? (key : String) (data : Data) : Option String :=
  (data.field? key).bind text?

/-- A record in which absent fields are left out. -/
def recordOf (fields : List (String × Option Data)) : Data :=
  .record (fields.filterMap fun field => field.2.map fun value => (field.1, value))

def texts (values : List String) : Data := .list (values.map .text)

end Data

end CiTranslate

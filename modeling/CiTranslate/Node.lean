import CiTranslate.Json.Writer
import CiTranslate.Yaml.Reader

/-!
Documents as pipelines are read from them: nulls, scalars as text, sequences, and mappings
from text.
-/

namespace CiTranslate

/-- A part of a document. Keys of a mapping are distinct where it was built from data. -/
inductive Node where
  | null
  | scalar (text : String)
  | sequence (items : List Node)
  | mapping (entries : List (String × Node))
  deriving Inhabited, Repr

namespace Node

/-! ### Looking into a document -/

def get? (key : String) : Node → Option Node
  | .mapping entries => Fields.get? key entries
  | _ => none

def text? : Node → Option String
  | .scalar text => some text
  | _ => none

def entries? : Node → Option (List (String × Node))
  | .mapping entries => some entries
  | _ => none

/-- The items of a sequence; anything else has none. -/
def items : Node → List Node
  | .sequence items => items
  | _ => []

def isNull : Node → Bool
  | .null => true
  | _ => false

/-- The text under a key. -/
def textAt? (key : String) (node : Node) : Option String := (node.get? key).bind text?

/-- The text under the first of several keys that has one. -/
def firstTextAt? (keys : List String) (node : Node) : Option String :=
  keys.findSome? (node.textAt? ·)

def textAtD (key default : String) (node : Node) : String := (node.textAt? key).getD default

/-- The items of the sequence under a key. -/
def itemsAt (key : String) (node : Node) : List Node := ((node.get? key).getD .null).items

/-! ### Documents as data -/

mutual

/-- The same document as data, in which all scalars are texts. -/
def toData : Node → Data
  | .null => .null
  | .scalar text => .text text
  | .sequence items => .list (itemsToData items)
  | .mapping entries => .record (entriesToData entries)

def itemsToData : List Node → List Data
  | [] => []
  | item :: items => item.toData :: itemsToData items

def entriesToData : List (String × Node) → List (String × Data)
  | [] => []
  | (key, node) :: entries => (key, node.toData) :: entriesToData entries

end

/-- The value as the parameter of a step: a scalar is its text, and a nested value its
compact JSON text. -/
def inputText : Node → String
  | .null => ""
  | .scalar text => text
  | .sequence items => Json.write (Node.toData (.sequence items))
  | .mapping entries => Json.write (Node.toData (.mapping entries))

/-- The entries of a mapping as parameters. -/
def inputTexts (node : Node) : List (String × String) :=
  (node.entries?.getD []).map fun entry => (entry.1, entry.2.inputText)

/-- The entries of the mapping under a key as parameters. -/
def inputTextsAt (key : String) (node : Node) : List (String × String) :=
  ((node.get? key).getD .null).inputTexts

def boolText (value : Bool) : String := if value then "true" else "false"

mutual

/-- A document of data, with doubles written as the format of the document writes them. -/
def ofData (floatText : Float → String) : Data → Node
  | .null => .null
  | .bool value => .scalar (boolText value)
  | .int value => .scalar (toString value)
  | .float value => .scalar (floatText value)
  | .text value => .scalar value
  | .list items => .sequence (itemsOfData floatText items)
  | .record fields => .mapping (Fields.ofList (entriesOfData floatText fields))

def itemsOfData (floatText : Float → String) : List Data → List Node
  | [] => []
  | item :: items => ofData floatText item :: itemsOfData floatText items

def entriesOfData (floatText : Float → String) : List (String × Data) → List (String × Node)
  | [] => []
  | (key, value) :: fields => (key, ofData floatText value) :: entriesOfData floatText fields

end

/-- A document of data that was read from, or is written as, JSON. -/
def ofJson (data : Data) : Node := ofData Json.doubles.write data

/-- A document of data that is written as YAML. -/
def ofYaml (data : Data) : Node := ofData Yaml.doubles.write data

/-- A value as the key of a mapping. -/
def keyText : Node → String
  | .null => "null"
  | .scalar text => text
  | node => node.inputText

mutual

/-- A document of a YAML value. Of keys that have the same text, the last one gives the
value, in the place of the first. -/
def ofValue : Yaml.Value → Node
  | .null => .null
  | .bool value => .scalar (boolText value)
  | .int value => .scalar (toString value)
  | .float value => .scalar (Yaml.doubles.write value)
  | .text value => .scalar value
  | .sequence items => .sequence (itemsOfValues items)
  | .mapping entries => .mapping (Fields.ofList (entriesOfValues entries))
  | .tagged _ value => ofValue value

def itemsOfValues : List Yaml.Value → List Node
  | [] => []
  | item :: items => ofValue item :: itemsOfValues items

def entriesOfValues : List (Yaml.Value × Yaml.Value) → List (String × Node)
  | [] => []
  | (key, value) :: entries => ((ofValue key).keyText, ofValue value) :: entriesOfValues entries

end

end Node

end CiTranslate

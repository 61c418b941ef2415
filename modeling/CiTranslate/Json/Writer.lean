import CiTranslate.Json.Number
import CiTranslate.Json.Text

/-!
JSON text of structured data, in two forms: compact, with no blanks, and with one item or
field a line, indented by two blanks a level.
-/

namespace CiTranslate.Json

def writeWord (word : String) : List Char := word.toList

mutual

/-- The compact form. -/
def compact : Data → List Char
  | .null => writeWord "null"
  | .bool value => writeWord (if value then "true" else "false")
  | .int value => writeWord (toString value)
  | .float value => writeWord (doubles.write value)
  | .text value => writeText value
  | .list items => '[' :: (compactItems items ++ [']'])
  | .record fields => '\x7b' :: (compactFields fields ++ ['\x7d'])

def compactItems : List Data → List Char
  | [] => []
  | [item] => compact item
  | item :: next :: items => compact item ++ ',' :: compactItems (next :: items)

def compactFields : List (String × Data) → List Char
  | [] => []
  | [(key, value)] => writeText key ++ ':' :: compact value
  | (key, value) :: next :: fields =>
    writeText key ++ ':' :: (compact value ++ ',' :: compactFields (next :: fields))

end

/-- A line end and the indentation of a level. -/
def newLine (level : Nat) : List Char := '\n' :: List.replicate (2 * level) ' '

mutual

/-- The form with one item a line; the opening bracket stands at the given level. -/
def pretty (level : Nat) : Data → List Char
  | .list [] => ['[', ']']
  | .list items => '[' :: (prettyItems (level + 1) items ++ newLine level ++ [']'])
  | .record [] => ['\x7b', '\x7d']
  | .record fields => '\x7b' :: (prettyFields (level + 1) fields ++ newLine level ++ ['\x7d'])
  | .null => compact .null
  | .bool value => compact (.bool value)
  | .int value => compact (.int value)
  | .float value => compact (.float value)
  | .text value => compact (.text value)

def prettyItems (level : Nat) : List Data → List Char
  | [] => []
  | [item] => newLine level ++ pretty level item
  | item :: next :: items =>
    newLine level ++ (pretty level item ++ ',' :: prettyItems level (next :: items))

def prettyFields (level : Nat) : List (String × Data) → List Char
  | [] => []
  | [(key, value)] => newLine level ++ (writeText key ++ ':' :: ' ' :: pretty level value)
  | (key, value) :: next :: fields =>
    newLine level ++ (writeText key ++ ':' :: ' ' ::
      (pretty level value ++ ',' :: prettyFields level (next :: fields)))

end

/-- JSON text without blanks. -/
def write (data : Data) : String := String.ofList (compact data)

/-- JSON text with one item or field a line. -/
def writePretty (data : Data) : String := String.ofList (pretty 0 data)

end CiTranslate.Json

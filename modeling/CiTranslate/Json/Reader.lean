import CiTranslate.Json.Number
import CiTranslate.Json.Text

/-!
Reading JSON texts as structured data. Lists and records may be nested 127 levels deep.
A name that a record repeats keeps its first place and takes the last value.
-/

namespace CiTranslate.Json

/-- The four blanks between the parts of a JSON text. -/
def isSpace (c : Char) : Bool := c == ' ' || c == '\n' || c == '\t' || c == '\r'

def skipSpaces (text : List Char) : List Char := text.dropWhile isSpace

/-- How many levels lists and records may be nested. -/
def maxDepth : Nat := 127

/-- Reads the rest of a word whose first letter is read. -/
def readWord : List Char → List Char → Except Fault (List Char)
  | [], text => .ok text
  | _ :: _, [] => .error (faultAt .endOfValue [])
  | w :: word, c :: text =>
    if c = w then readWord word text else .error (faultOn .expectedWord (c :: text))

/-- Reads a value that is neither list nor record. -/
def readScalar (text : List Char) : Except Fault (Data × List Char) :=
  match text with
  | [] => .error (faultOn .endOfValue [])
  | c :: rest =>
    match c with
    | 'n' => (readWord ['u', 'l', 'l'] rest).map fun rest => (.null, rest)
    | 't' => (readWord ['r', 'u', 'e'] rest).map fun rest => (.bool true, rest)
    | 'f' => (readWord ['a', 'l', 's', 'e'] rest).map fun rest => (.bool false, rest)
    | '-' => readNumber true rest
    | '"' => (readText rest).map fun (value, rest) => (.text value, rest)
    | c => if c.isDigit then readNumber false text else .error (faultOn .expectedValue text)

/-- What comes next in a list or record. -/
inductive Next where
  | close (rest : List Char)
  | item (text : List Char)

/-- Looks for the next item of a list, or its end. -/
def nextItem (first : Bool) (text : List Char) : Except Fault Next :=
  match skipSpaces text with
  | [] => .error (faultOn .endOfList [])
  | ']' :: rest => .ok (.close rest)
  | c :: rest =>
    if first then .ok (.item (c :: rest))
    else if c = ',' then
      match skipSpaces rest with
      | [] => .error (faultOn .endOfValue [])
      | ']' :: rest => .error (faultOn .trailingComma (']' :: rest))
      | text => .ok (.item text)
    else .error (faultOn .expectedListEnd (c :: rest))

/-- Looks for the next key of a record, behind its opening quote, or the record's end. -/
def nextKey (first : Bool) (text : List Char) : Except Fault Next :=
  match skipSpaces text with
  | [] => .error (faultOn .endOfObject [])
  | '\x7d' :: rest => .ok (.close rest)
  | c :: rest =>
    if first then
      if c = quote then .ok (.item rest) else .error (faultOn .keyNotString (c :: rest))
    else if c = ',' then
      match skipSpaces rest with
      | [] => .error (faultOn .endOfValue [])
      | '\x7d' :: rest => .error (faultOn .trailingComma ('\x7d' :: rest))
      | d :: rest =>
        if d = quote then .ok (.item rest) else .error (faultOn .keyNotString (d :: rest))
    else .error (faultOn .expectedObjectEnd (c :: rest))

/-- Reads the colon between a key and its value. -/
def readColon (text : List Char) : Except Fault (List Char) :=
  match skipSpaces text with
  | [] => .error (faultOn .endOfObject [])
  | ':' :: rest => .ok rest
  | rest => .error (faultOn .expectedColon rest)

mutual

/-- Reads a value. Each step takes a character or ends, so that the length of the text
bounds the steps; `depth` is the number of levels that may still be opened. -/
def readValueFrom : Nat → Nat → List Char → Except Fault (Data × List Char)
  | 0, _, text => .error (faultOn .endOfValue text)
  | steps + 1, depth, text =>
    match skipSpaces text with
    | '[' :: rest =>
      match depth with
      | 0 => .error (faultOn .tooDeep ('[' :: rest))
      | depth + 1 => readItemsFrom steps depth [] rest
    | '\x7b' :: rest =>
      match depth with
      | 0 => .error (faultOn .tooDeep ('\x7b' :: rest))
      | depth + 1 => readFieldsFrom steps depth [] rest
    | text => readScalar text

/-- Reads the items of a list after those already read, nearest first. -/
def readItemsFrom : Nat → Nat → List Data → List Char → Except Fault (Data × List Char)
  | 0, _, _, text => .error (faultOn .endOfList text)
  | steps + 1, depth, read, text =>
    match nextItem read.isEmpty text with
    | .error fault => .error fault
    | .ok (.close rest) => .ok (.list read.reverse, rest)
    | .ok (.item text) =>
      match readValueFrom steps depth text with
      | .error fault => .error fault
      | .ok (item, rest) => readItemsFrom steps depth (item :: read) rest

/-- Reads the fields of a record after those already read. -/
def readFieldsFrom : Nat → Nat → List (String × Data) → List Char → Except Fault (Data × List Char)
  | 0, _, _, text => .error (faultOn .endOfObject text)
  | steps + 1, depth, read, text =>
    match nextKey read.isEmpty text with
    | .error fault => .error fault
    | .ok (.close rest) => .ok (.record read, rest)
    | .ok (.item text) =>
      match readText text with
      | .error fault => .error fault
      | .ok (key, rest) =>
        match readColon rest with
        | .error fault => .error fault
        | .ok rest =>
          match readValueFrom steps depth rest with
          | .error fault => .error fault
          | .ok (value, rest) => readFieldsFrom steps depth (Fields.put key value read) rest

end

/-- Reads a value at the start of the text. -/
def readValue (text : List Char) : Except Fault (Data × List Char) :=
  readValueFrom (2 * text.length + 2) maxDepth text

/-- Nothing but blanks may follow. -/
def readEnd (result : α) (text : List Char) : Except Fault α :=
  match skipSpaces text with
  | [] => .ok result
  | rest => .error (faultOn .trailingCharacters rest)

/-- Reads a text that is one value. -/
def readChars (text : List Char) : Except Fault Data :=
  match readValue text with
  | .error fault => .error fault
  | .ok (data, rest) => readEnd data rest

/-- Reads a JSON text. -/
def read (text : String) : Except Error Data :=
  (readChars text.toList).mapError (·.error text.toList)

end CiTranslate.Json

import CiTranslate.Data
import CiTranslate.Yaml.Writer.Style

/-!
YAML text of structured data, in block form.

The entries of a collection stand in one column. A collection inside another one is
indented by two blanks, but the items of a list stand in the column of the key that the
list belongs to. A key that is long or has several lines is marked with `?`, and its value
with `:`.
-/

namespace CiTranslate.Yaml

def spaces (n : Nat) : List Char := List.replicate n ' '

/-! ### Scalars -/

/-- A text with the start of every line but the first indented. The flag tells that a line
starts here. -/
def indentBreaks (column : Nat) (lineStarts : Bool) : List Char → List Char
  | [] => []
  | c :: text =>
    if isBreak c then c :: indentBreaks column true text
    else (if lineStarts then spaces column else []) ++ c :: indentBreaks column false text

/-- A text between single quotes, in which a quote is written twice. -/
def singleQuoted (column : Nat) (text : List Char) : List Char :=
  let doubled := text.flatMap fun c => if c == '\'' then ['\'', '\''] else [c]
  let ending := if text.getLast?.any isBreak then spaces column else []
  '\'' :: indentBreaks column false doubled ++ ending ++ ['\'']

def hexDigits (n width : Nat) : List Char :=
  let digits := (Nat.toDigits 16 n).map Char.toUpper
  List.replicate (width - digits.length) '0' ++ digits

/-- The character after the backslash, for characters that have an escape of their own. -/
def shortEscape? (c : Char) : Option Char :=
  match c.toNat with
  | 0x0 => some '0'
  | 0x7 => some 'a'
  | 0x8 => some 'b'
  | 0x9 => some 't'
  | 0xa => some 'n'
  | 0xb => some 'v'
  | 0xc => some 'f'
  | 0xd => some 'r'
  | 0x1b => some 'e'
  | 0x22 => some '"'
  | 0x5c => some '\\'
  | 0x85 => some 'N'
  | 0xa0 => some '_'
  | 0x2028 => some 'L'
  | 0x2029 => some 'P'
  | _ => none

/-- A character between double quotes. -/
def escapeChar (c : Char) : List Char :=
  if isPrintable c && !isBreak c && c != '"' && c != '\\' then [c]
  else
    match shortEscape? c with
    | some e => ['\\', e]
    | none =>
      let n := c.toNat
      if n ≤ 0xff then '\\' :: 'x' :: hexDigits n 2
      else if n ≤ 0xffff then '\\' :: 'u' :: hexDigits n 4
      else '\\' :: 'U' :: hexDigits n 8

def doubleQuoted (text : List Char) : List Char := '"' :: text.flatMap escapeChar ++ ['"']

/-- Whether the start of a literal block does not show its indentation. -/
def hidesIndent (text : List Char) : Bool := text.head?.any fun c => c == ' ' || isBreak c

/-- What becomes of the line breaks at the end: `-` if there is none, `+` if there are
several, or nothing but one. -/
def chompMark (text : List Char) : List Char :=
  match text.reverse with
  | [] => ['-']
  | [c] => if isBreak c then ['+'] else ['-']
  | c :: d :: _ => if !isBreak c then ['-'] else if isBreak d then ['+'] else []

/-- A literal block with its line end. -/
def literalBlock (column : Nat) (text : List Char) : List Char :=
  let indent := if hidesIndent text then ['2'] else []
  let ending := if text.getLast?.any isBreak then [] else ['\n']
  '|' :: indent ++ chompMark text ++ '\n' :: indentBreaks column true text ++ ending

/-- A text with its line end; further lines of it start in the given column. -/
def textLine (column : Nat) (text : String) : List Char :=
  let chars := text.toList
  match styleOf chars with
  | .plain => chars ++ ['\n']
  | .single => singleQuoted column chars ++ ['\n']
  | .double => doubleQuoted chars ++ ['\n']
  | .literal => literalBlock column chars

/-- Whether a key can stand on one line with its colon. -/
def isSimpleKey (key : String) : Bool := !key.toList.any isBreak && key.utf8ByteSize ≤ 128

/-- A simple key. -/
def simpleKey (key : String) : List Char :=
  let chars := key.toList
  match styleOf chars with
  | .plain => chars
  | .single => singleQuoted 0 chars
  | _ => doubleQuoted chars

/-! ### Collections -/

/-- Entries in a column, where the first is already placed. -/
def stack (column : Nat) : List (List Char) → List Char
  | [] => []
  | first :: entries => first ++ entries.flatMap (spaces column ++ ·)

mutual

/-- A value after the mark of an entry that stands in the given column, with its line end. -/
def afterMark (column : Nat) : Data → List Char
  | .list [] => "[]\n".toList
  | .list (item :: items) => stack (column + 2) (itemTexts (column + 2) (item :: items))
  | .record [] => "\x7b\x7d\n".toList
  | .record (field :: fields) => stack (column + 2) (fieldTexts (column + 2) (field :: fields))
  | .text value => textLine (column + 2) value
  | .null => "null\n".toList
  | .bool value => (if value then "true\n" else "false\n").toList
  | .int value => (toString value ++ "\n").toList
  | .float value => (doubles.write value ++ "\n").toList

/-- A value after a simple key in the given column, with its line end. -/
def afterKey (column : Nat) : Data → List Char
  | .list (item :: items) =>
    '\n' :: spaces column ++ stack column (itemTexts column (item :: items))
  | .record (field :: fields) =>
    '\n' :: spaces (column + 2) ++ stack (column + 2) (fieldTexts (column + 2) (field :: fields))
  | .list [] => " []\n".toList
  | .record [] => " \x7b\x7d\n".toList
  | .text value => ' ' :: textLine (column + 2) value
  | .null => " null\n".toList
  | .bool value => (if value then " true\n" else " false\n").toList
  | .int value => (" " ++ toString value ++ "\n").toList
  | .float value => (" " ++ doubles.write value ++ "\n").toList

def itemTexts (column : Nat) : List Data → List (List Char)
  | [] => []
  | item :: items => ('-' :: ' ' :: afterMark column item) :: itemTexts column items

def fieldTexts (column : Nat) : List (String × Data) → List (List Char)
  | [] => []
  | (key, value) :: fields =>
    (if isSimpleKey key then simpleKey key ++ ':' :: afterKey column value
      else '?' :: ' ' :: textLine (column + 2) key ++ spaces column ++
        ':' :: ' ' :: afterMark column value) :: fieldTexts column fields

end

/-- A document. -/
def writeDocument : Data → List Char
  | .list (item :: items) => stack 0 (itemTexts 0 (item :: items))
  | .record (field :: fields) => stack 0 (fieldTexts 0 (field :: fields))
  | data => afterMark 0 data

/-- The YAML text of a document. -/
def write (data : Data) : String := String.ofList (writeDocument data)

end CiTranslate.Yaml

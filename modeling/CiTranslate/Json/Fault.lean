import CiTranslate.Shape
import CiTranslate.Text.Bytes

/-!
Faults in JSON texts and the places where they are reported.

A reader that meets a fault knows only the text that is still before it, so a fault keeps
the number of bytes that were left. The line and the column follow from the whole text:
lines start at one, and the column counts the bytes of the line that were read.
-/

namespace CiTranslate.Json

open Text (byteLength)

inductive Problem where
  | endOfList
  | endOfObject
  | endOfString
  | endOfValue
  | expectedColon
  | expectedListEnd
  | expectedObjectEnd
  | expectedWord
  | expectedValue
  | invalidEscape
  | invalidNumber
  | numberOutOfRange
  | controlCharacter
  | keyNotString
  | loneSurrogate
  | unfinishedSurrogate
  | trailingComma
  | trailingCharacters
  | tooDeep
  | mismatch (cause : Mismatch)
  deriving DecidableEq, Repr

def Problem.message : Problem → String
  | .endOfList => "EOF while parsing a list"
  | .endOfObject => "EOF while parsing an object"
  | .endOfString => "EOF while parsing a string"
  | .endOfValue => "EOF while parsing a value"
  | .expectedColon => "expected `:`"
  | .expectedListEnd => "expected `,` or `]`"
  | .expectedObjectEnd => "expected `,` or `\x7d`"
  | .expectedWord => "expected ident"
  | .expectedValue => "expected value"
  | .invalidEscape => "invalid escape"
  | .invalidNumber => "invalid number"
  | .numberOutOfRange => "number out of range"
  | .controlCharacter =>
    "control character (\\u0000-\\u001F) found while parsing a string"
  | .keyNotString => "key must be a string"
  | .loneSurrogate => "lone leading surrogate in hex escape"
  | .unfinishedSurrogate => "unexpected end of hex escape"
  | .trailingComma => "trailing comma"
  | .trailingCharacters => "trailing characters"
  | .tooDeep => "recursion limit exceeded"
  | .mismatch cause => cause.message

/-- A problem and the number of bytes that were left where it was met. -/
structure Fault where
  problem : Problem
  left : Nat
  deriving DecidableEq, Repr

/-- A fault before the text that is left. -/
def faultAt (problem : Problem) (rest : List Char) : Fault :=
  ⟨problem, byteLength rest⟩

/-- A fault on the next byte, which counts as read; at the end there is none. -/
def faultOn (problem : Problem) (rest : List Char) : Fault :=
  ⟨problem, byteLength rest - 1⟩

/-- A line and a column. -/
structure Place where
  line : Nat
  column : Nat
  deriving DecidableEq, Repr

/-- The place after `bytes` more bytes of the text. -/
def Place.advance (place : Place) (bytes : Nat) : List Char → Place
  | [] => place
  | c :: text =>
    if bytes < c.utf8Size then { place with column := place.column + bytes }
    else if c = '\n' then Place.advance ⟨place.line + 1, 0⟩ (bytes - c.utf8Size) text
    else
      Place.advance { place with column := place.column + c.utf8Size } (bytes - c.utf8Size) text

/-- Where in the whole text the fault was met. -/
def Fault.place (fault : Fault) (text : List Char) : Place :=
  Place.advance ⟨1, 0⟩ (byteLength text - fault.left) text

/-- A problem and its place in the text. -/
structure Error where
  problem : Problem
  place : Place
  deriving DecidableEq, Repr

def Fault.error (fault : Fault) (text : List Char) : Error :=
  ⟨fault.problem, fault.place text⟩

def Error.message (error : Error) : String :=
  s!"{error.problem.message} at line {error.place.line} column {error.place.column}"

end CiTranslate.Json

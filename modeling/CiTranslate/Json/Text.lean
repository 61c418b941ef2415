import CiTranslate.Json.Fault
import CiTranslate.Text.Digits

/-!
Texts inside JSON: which characters are escaped when a text is written, and which escapes
are read. Escapes of UTF-16 surrogates are read only as a pair.
-/

namespace CiTranslate.Json

def quote : Char := '"'
def backslash : Char := '\\'

/-- Two lower-case hexadecimal digits. -/
def hexByte (n : Nat) : List Char := [Nat.digitChar (n / 16 % 16), Nat.digitChar (n % 16)]

/-- The quote, the backslash and the controls are escaped, and nothing else. -/
def escape (c : Char) : List Char :=
  match c with
  | '"' => [backslash, quote]
  | '\\' => [backslash, backslash]
  | '\x08' => [backslash, 'b']
  | '\t' => [backslash, 't']
  | '\n' => [backslash, 'n']
  | '\x0c' => [backslash, 'f']
  | '\r' => [backslash, 'r']
  | c => if c.toNat < 0x20 then [backslash, 'u', '0', '0'] ++ hexByte c.toNat else [c]

/-- A text between quotes. -/
def writeText (text : String) : List Char :=
  quote :: (text.toList.flatMap escape ++ [quote])

/-- Reads four hexadecimal digits. Four bytes are taken whatever they hold. -/
def readHex4 (text : List Char) : Except Fault (Nat × List Char) :=
  let unread : Except Fault (Nat × List Char) :=
    if Text.byteLength text < 4 then .error ⟨.endOfString, 0⟩
    else .error ⟨.invalidEscape, Text.byteLength text - 4⟩
  match text with
  | a :: b :: c :: d :: rest =>
    match Text.natural? 16 [a, b, c, d] with
    | some n => .ok (n, rest)
    | none => unread
  | _ => unread

def isLeadingSurrogate (n : Nat) : Bool := 0xd800 ≤ n && n ≤ 0xdbff
def isTrailingSurrogate (n : Nat) : Bool := 0xdc00 ≤ n && n ≤ 0xdfff

/-- Reads the second half of a surrogate pair. -/
def readTrailing (leading : Nat) : List Char → Except Fault (Char × List Char)
  | [] => .error (faultAt .endOfString [])
  | '\\' :: [] => .error (faultAt .endOfString [])
  | '\\' :: 'u' :: text =>
    match readHex4 text with
    | .error fault => .error fault
    | .ok (n, rest) =>
      if isTrailingSurrogate n then
        .ok (Char.ofNat (0x10000 + (leading - 0xd800) * 0x400 + (n - 0xdc00)), rest)
      else .error (faultAt .loneSurrogate rest)
  | '\\' :: text => .error (faultOn .unfinishedSurrogate text)
  | text => .error (faultOn .unfinishedSurrogate text)

/-- Reads the digits of a numeric escape, and a second escape after half a pair. -/
def readNumeric (text : List Char) : Except Fault (Char × List Char) :=
  match readHex4 text with
  | .error fault => .error fault
  | .ok (n, rest) =>
    if isTrailingSurrogate n then .error (faultAt .loneSurrogate rest)
    else if isLeadingSurrogate n then readTrailing n rest
    else .ok (Char.ofNat n, rest)

/-- The characters that stand after a backslash by themselves. -/
def shortEscape? (c : Char) : Option Char :=
  match c with
  | '"' => some quote
  | '\\' => some backslash
  | '/' => some '/'
  | 'b' => some '\x08'
  | 'f' => some '\x0c'
  | 'n' => some '\n'
  | 'r' => some '\r'
  | 't' => some '\t'
  | _ => none

/-- Reads an escape after its backslash. -/
def readEscape : List Char → Except Fault (Char × List Char)
  | [] => .error (faultAt .endOfString [])
  | c :: text =>
    match shortEscape? c with
    | some c => .ok (c, text)
    | none => if c = 'u' then readNumeric text else .error (faultOn .invalidEscape (c :: text))

/-- Reads the rest of a text after its opening quote; `read` is what came before, nearest
first. Each step takes a character, so as many steps as characters suffice. -/
def readCharsFrom : Nat → List Char → List Char → Except Fault (List Char × List Char)
  | 0, _, text => .error (faultAt .endOfString text)
  | _ + 1, _, [] => .error (faultAt .endOfString [])
  | steps + 1, read, c :: text =>
    if c = quote then .ok (read.reverse, text)
    else if c = backslash then
      match readEscape text with
      | .ok (c, rest) => readCharsFrom steps (c :: read) rest
      | .error fault => .error fault
    else if c.toNat < 0x20 then .error (faultAt .controlCharacter text)
    else readCharsFrom steps (c :: read) text

/-- Reads a text after its opening quote. -/
def readText (text : List Char) : Except Fault (String × List Char) :=
  (readCharsFrom (text.length + 1) [] text).map fun (chars, rest) => (String.ofList chars, rest)

/-- Passes over a text after its opening quote; a numeric escape may have any value. A control
character is met before it is taken, where a text that is read meets it after. -/
def skipTextFrom : Nat → List Char → Except Fault (List Char)
  | 0, text => .error (faultAt .endOfString text)
  | _ + 1, [] => .error (faultAt .endOfString [])
  | steps + 1, c :: text =>
    if c = quote then .ok text
    else if c = backslash then
      match text with
      | [] => .error (faultAt .endOfString [])
      | e :: rest =>
        if (shortEscape? e).isSome then skipTextFrom steps rest
        else if e = 'u' then
          match readHex4 rest with
          | .ok (_, rest) => skipTextFrom steps rest
          | .error fault => .error fault
        else .error (faultOn .invalidEscape (e :: rest))
    else if c.toNat < 0x20 then .error (faultAt .controlCharacter (c :: text))
    else skipTextFrom steps text

def skipText (text : List Char) : Except Fault (List Char) :=
  skipTextFrom (text.length + 1) text

end CiTranslate.Json

import CiTranslate.Text.Digits
import CiTranslate.Toml.Statement

/-!
The text between the quotes of a TOML string: which characters may stand there, and what
escapes stand for. A first line end after three quotes is dropped, and so is a line end
after a backslash, with the blanks that follow.
-/

namespace CiTranslate.Toml

/-- Reads a code point of the given number of digits. -/
def readCodePoint (count : Nat) (text : List Char) : Except Fault (Char × List Char) :=
  match Text.naturalOf? 16 count text with
  | none => .error .fewDigits
  | some n =>
    if n.isValidChar then .ok (Char.ofNat n, text.drop count) else .error .noCodePoint

/-- Reads an escape after its backslash. -/
def readEscape : List Char → Except Fault (Char × List Char)
  | 'b' :: rest => .ok ('\x08', rest)
  | 'e' :: rest => .ok ('\x1b', rest)
  | 'f' :: rest => .ok ('\x0c', rest)
  | 'n' :: rest => .ok ('\n', rest)
  | 'r' :: rest => .ok ('\r', rest)
  | 't' :: rest => .ok ('\t', rest)
  | '\\' :: rest => .ok ('\\', rest)
  | '"' :: rest => .ok ('"', rest)
  | 'x' :: rest => readCodePoint 2 rest
  | 'u' :: rest => readCodePoint 4 rest
  | 'U' :: rest => readCodePoint 8 rest
  | _ => .error .unknownEscape

/-- Passes over blanks and line ends; the flag tells that a line has ended. -/
def skipContinuation : Bool → List Char → Except Fault (List Char)
  | _, '\r' :: '\n' :: rest => skipContinuation true rest
  | hasEnded, c :: rest =>
    if c = '\r' then .error .loneReturn
    else if c = '\n' then skipContinuation true rest
    else if isSpaceOrTab c then skipContinuation hasEnded rest
    else if hasEnded then .ok (c :: rest)
    else .error .openContinuation
  | hasEnded, [] => if hasEnded then .ok [] else .error .openContinuation

/-- Checks a character that stands for itself. -/
def checkCharacter (quoting : Quoting) (c : Char) (rest : List Char) : Except Fault Unit :=
  if quoting.isMultiline ∧ c = '\n' then .ok ()
  else if quoting.isMultiline ∧ c = '\r' then
    if rest.head? = some '\n' then .ok () else .error .loneReturn
  else if isControl c then .error (.stringCharacter quoting)
  else .ok ()

/-- Decodes at most the given number of characters and escapes. -/
def decodeFrom (quoting : Quoting) : Nat → List Char → Except Fault (List Char)
  | 0, _ => .ok []
  | _ + 1, [] => .ok []
  | steps + 1, c :: rest =>
    if quoting.isBasic ∧ c = '\\' then
      if quoting.isMultiline ∧ rest.head?.any (fun c => isSpaceOrTab c || isLineEnd c) then
        (skipContinuation false rest).bind (decodeFrom quoting steps)
      else
        match readEscape rest with
        | .error fault => .error fault
        | .ok (c, rest) => (decodeFrom quoting steps rest).map (c :: ·)
    else
      match checkCharacter quoting c rest with
      | .error fault => .error fault
      | .ok () => (decodeFrom quoting steps rest).map (c :: ·)

def dropFirstLineEnd : List Char → List Char
  | '\n' :: rest => rest
  | '\r' :: '\n' :: rest => rest
  | text => text

/-- The text without its quotes, if it has both. -/
def unquote? (mark text : List Char) : Option (List Char) :=
  if mark.isPrefixOf text then
    let rest := text.drop mark.length
    if mark.isSuffixOf rest then some (rest.take (rest.length - mark.length)) else none
  else none

/-- Decodes a string with its quotes. -/
def decodeQuoted (quoting : Quoting) (text : List Char) : Except Fault String :=
  match unquote? quoting.mark.toList text with
  | none => .error (.openString quoting)
  | some text =>
    let text := if quoting.isMultiline then dropFirstLineEnd text else text
    (decodeFrom quoting text.length text).map String.ofList

def isKeyCharacter (c : Char) : Bool := c.isAlphanum || c == '-' || c == '_'

/-- Decodes a part of a key. -/
def Word.decodeKey (word : Word) : Except Fault String :=
  match word.quoting with
  | some quoting =>
    if quoting.isMultiline then .error (.multilineKey quoting)
    else decodeQuoted quoting word.text
  | none =>
    if word.text.isEmpty then .error .emptyKey
    else if word.text.all isKeyCharacter then .ok (String.ofList word.text)
    else .error .invalidKey

end CiTranslate.Toml

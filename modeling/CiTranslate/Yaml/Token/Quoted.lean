import CiTranslate.Text.Digits
import CiTranslate.Yaml.Token.Gap

/-!
Scalars between quotes. Between single quotes only the quote is special, and is written
twice; between double quotes a backslash starts an escape, and at the end of a line it
joins the lines.
-/

namespace CiTranslate.Yaml

/-- Escapes of one character after the backslash. -/
def escaped? (c : Char) : Option Char :=
  match c with
  | '0' => some '\x00'
  | 'a' => some '\x07'
  | 'b' => some '\x08'
  | 't' => some '\t'
  | '\t' => some '\t'
  | 'n' => some '\n'
  | 'v' => some '\x0b'
  | 'f' => some '\x0c'
  | 'r' => some '\r'
  | 'e' => some '\x1b'
  | ' ' => some ' '
  | '"' => some '"'
  | '/' => some '/'
  | '\\' => some '\\'
  | 'N' => some nextLine
  | '_' => some (Char.ofNat 0xa0)
  | 'L' => some lineSeparator
  | 'P' => some paragraphSeparator
  | _ => none

/-- The number of hexadecimal digits after a numeric escape. -/
def escapeLength? (c : Char) : Option Nat :=
  match c with
  | 'x' => some 2
  | 'u' => some 4
  | 'U' => some 8
  | _ => none

/-- A scalar value of Unicode: surrogates are none. -/
def isCodePoint (n : Nat) : Bool := n < 0xd800 || (0xdfff < n && n ≤ 0x10ffff)

/-- Reads an escape at its backslash. -/
def readEscape (start : Mark) (cursor : Cursor) : Except Fault (Char × Cursor) :=
  match cursor.rest with
  | _ :: e :: text =>
    match escaped? e, escapeLength? e with
    | some c, _ => .ok (c, cursor.skipMany 2)
    | none, some length =>
      let cursor := cursor.skipMany 2
      match Text.naturalOf? 16 length text with
      | none => .error (faultSince .quotedEscape start .expectedHexDigits cursor.mark)
      | some n =>
        if isCodePoint n then .ok (Char.ofNat n, cursor.skipMany length)
        else .error (faultSince .quotedEscape start .invalidCodePoint cursor.mark)
    | none, none => .error (faultSince .quotedEscape start .unknownEscape cursor.mark)
  | _ => .error (faultSince .quotedEscape start .unknownEscape cursor.mark)

/-- Reads a word up to a blank, a line break or the closing quote; `read` is the scalar so
far, nearest character first. The flag tells that a backslash joined two lines. -/
def readQuotedWord (quote : Char) (start : Mark) :
    Nat → List Char → Cursor → Except Fault (List Char × Cursor × Bool)
  | 0, read, cursor => .ok (read, cursor, false)
  | steps + 1, read, cursor =>
    match cursor.rest with
    | [] => .ok (read, cursor, false)
    | c :: rest =>
      if isSpaceOrTab c || isBreak c then .ok (read, cursor, false)
      else if c == quote then
        if quote == '\'' && rest.head? == some '\'' then
          readQuotedWord quote start steps (c :: read) (cursor.skipMany 2)
        else .ok (read, cursor, false)
      else if quote == '"' && c == '\\' then
        if !rest.isEmpty && atBreakOrEnd rest then .ok (read, cursor.skip.skipBreak, true)
        else
          match readEscape start cursor with
          | .error fault => .error fault
          | .ok (c, cursor) => readQuotedWord quote start steps (c :: read) cursor
      else readQuotedWord quote start steps (c :: read) cursor.skip

/-- Reads words and gaps up to the closing quote. -/
def readQuotedFrom (quote : Char) (start : Mark) :
    Nat → List Char → Cursor → Except Fault (List Char × Cursor)
  | 0, _, cursor => .error (faultSince .quotedScalar start .endInScalar cursor.mark)
  | steps + 1, read, cursor =>
    if cursor.atDocumentMarker then
      .error (faultSince .quotedScalar start .documentMarkerInScalar cursor.mark)
    else if cursor.rest.isEmpty then
      .error (faultSince .quotedScalar start .endInScalar cursor.mark)
    else
      match readQuotedWord quote start (cursor.rest.length + 1) read cursor with
      | .error fault => .error fault
      | .ok (read, cursor, joined) =>
        if cursor.rest.head? == some quote then .ok (read.reverse, cursor.skip)
        else
          match ({ broken := joined } : Gap).read 0 cursor with
          | .error mark => .error (faultSince .quotedScalar start .tabInIndentation mark)
          | .ok (gap, cursor) =>
            readQuotedFrom quote start steps (gap.folded.reverse ++ read) cursor

/-- Reads a quoted scalar at its opening quote. -/
def readQuoted (quote : Char) (cursor : Cursor) : Except Fault (Token × Cursor) :=
  (readQuotedFrom quote cursor.mark (cursor.rest.length + 1) [] cursor.skip).map
    fun (text, after) => (⟨.scalar text .quoted, cursor.mark, after.mark⟩, after)

end CiTranslate.Yaml

import CiTranslate.Text.Bytes

/-!
Positions in a YAML text, and the cursor with which the text is read.

Lines end at a carriage return, a line feed, both in this order, or one of the Unicode
characters next line, line separator and paragraph separator. Columns count characters.
-/

namespace CiTranslate.Yaml

/-- A position, counted from zero. The index counts bytes. -/
structure Mark where
  index : Nat := 0
  line : Nat := 0
  column : Nat := 0
  deriving DecidableEq, Repr, Inhabited

def nextLine : Char := Char.ofNat 0x85
def lineSeparator : Char := Char.ofNat 0x2028
def paragraphSeparator : Char := Char.ofNat 0x2029
def byteOrderMark : Char := Char.ofNat 0xfeff

def isBreak (c : Char) : Bool :=
  c == '\r' || c == '\n' || c == nextLine || c == lineSeparator || c == paragraphSeparator

def isSpaceOrTab (c : Char) : Bool := c == ' ' || c == '\t'

/-- Whether the text ends or goes on with a line break. -/
def atBreakOrEnd : List Char → Bool
  | [] => true
  | c :: _ => isBreak c

/-- Whether the text ends or goes on with a blank or a line break. -/
def atBlankOrEnd : List Char → Bool
  | [] => true
  | c :: _ => isSpaceOrTab c || isBreak c

/-- Letters, digits, the hyphen and the underscore, as in anchors and handles. -/
def isNameChar (c : Char) : Bool := c.isAlphanum || c == '_' || c == '-'

/-- The text that is still to be read, and where it starts. -/
structure Cursor where
  rest : List Char
  mark : Mark
  deriving Inhabited

namespace Cursor

/-- Moves over one character of a line. -/
def skip (cursor : Cursor) : Cursor :=
  match cursor.rest with
  | [] => cursor
  | c :: rest =>
    { rest, mark := { cursor.mark with
        index := cursor.mark.index + c.utf8Size, column := cursor.mark.column + 1 } }

/-- Moves over `n` characters of a line. -/
def skipMany (cursor : Cursor) (n : Nat) : Cursor :=
  { rest := cursor.rest.drop n
    mark := { cursor.mark with
      index := cursor.mark.index + Text.byteLength (cursor.rest.take n)
      column := cursor.mark.column + n } }

/-- Moves over the characters of a line that satisfy `p`, and returns them. -/
def takeWhile (cursor : Cursor) (p : Char → Bool) : List Char × Cursor :=
  let taken := cursor.rest.takeWhile p
  (taken, cursor.skipMany taken.length)

def skipWhile (cursor : Cursor) (p : Char → Bool) : Cursor := (cursor.takeWhile p).2

/-- The line break at the start of a text in its normal form, its bytes, and the text after
it. Separators of lines and paragraphs stay as they are. -/
def lineBreak? : List Char → Option (Char × Nat × List Char)
  | '\r' :: '\n' :: rest => some ('\n', 2, rest)
  | c :: rest =>
    if c == '\r' || c == '\n' || c == nextLine then some ('\n', c.utf8Size, rest)
    else if isBreak c then some (c, c.utf8Size, rest)
    else none
  | [] => none

/-- Moves over a line break, if one follows, and returns it in its normal form. -/
def takeBreak (cursor : Cursor) : List Char × Cursor :=
  match lineBreak? cursor.rest with
  | none => ([], cursor)
  | some (c, bytes, rest) =>
    ([c], { rest, mark := ⟨cursor.mark.index + bytes, cursor.mark.line + 1, 0⟩ })

def skipBreak (cursor : Cursor) : Cursor := cursor.takeBreak.2

/-- Moves over blanks and a comment up to the end of the line. -/
def skipBlanksAndComment (cursor : Cursor) : Cursor :=
  let cursor := cursor.skipWhile isSpaceOrTab
  match cursor.rest with
  | '#' :: _ => cursor.skipWhile fun c => !isBreak c
  | _ => cursor

/-- Whether a line starts with one of the document markers, three times the given character. -/
def atMarker (cursor : Cursor) (c : Char) : Bool :=
  cursor.mark.column == 0 &&
    match cursor.rest with
    | x :: y :: z :: rest => x == c && y == c && z == c && atBlankOrEnd rest
    | _ => false

def atDocumentMarker (cursor : Cursor) : Bool := cursor.atMarker '-' || cursor.atMarker '.'

end Cursor

end CiTranslate.Yaml

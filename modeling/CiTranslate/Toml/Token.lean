import CiTranslate.Toml.Fault

/-!
Tokens of a TOML text. Every text has tokens: a string that is not closed ends with its
line, and whatever is no mark is an atom.
-/

namespace CiTranslate.Toml

inductive TokenKind where
  | dot
  | equals
  | comma
  | openBracket
  | closeBracket
  | openBrace
  | closeBrace
  | blank
  | newline
  | comment
  | string (quoting : Quoting)
  | atom
  deriving DecidableEq, Repr

structure Token where
  kind : TokenKind
  text : List Char
  deriving DecidableEq, Repr

def isSpaceOrTab (c : Char) : Bool := c == ' ' || c == '\t'

def isLineEnd (c : Char) : Bool := c == '\n' || c == '\r'

/-- The tokens of one character. -/
def markKind? (c : Char) : Option TokenKind :=
  match c with
  | '.' => some .dot
  | '=' => some .equals
  | ',' => some .comma
  | '[' => some .openBracket
  | ']' => some .closeBracket
  | '\x7b' => some .openBrace
  | '\x7d' => some .closeBrace
  | _ => none

/-- Characters that end an atom. Quotes do not. -/
def endsAtom (c : Char) : Bool :=
  (markKind? c).isSome || isSpaceOrTab c || isLineEnd c || c == '#'

/-- The length of a string on one line after its opening quote, as far as the line goes. -/
def lineStringLength (quote : Char) (escapes : Bool) : List Char → Nat
  | [] => 0
  | '\\' :: c :: text =>
    if escapes && c != '\n' then lineStringLength quote escapes text + 2
    else lineStringLength quote escapes (c :: text) + 1
  | c :: text =>
    if c == '\n' then 0 else if c == quote then 1 else lineStringLength quote escapes text + 1

/-- Whether three quotes follow. -/
def startsTriple (quote : Char) (text : List Char) : Bool :=
  [quote, quote, quote].isPrefixOf text

/-- The length of a string of several lines after its opening quotes. Up to two more quotes
may stand before the closing ones. -/
def blockStringLength (quote : Char) (escapes : Bool) : List Char → Nat
  | [] => 0
  | '\\' :: c :: text =>
    if escapes then blockStringLength quote escapes text + 2
    else blockStringLength quote escapes (c :: text) + 1
  | c :: text =>
    if startsTriple quote (c :: text) then
      3 + ((text.drop 2).take 2 |>.takeWhile (· == quote)).length
    else blockStringLength quote escapes text + 1

/-- The kind and the length of a string at its opening quote. -/
def stringToken (quote : Char) (text : List Char) : Quoting × Nat :=
  let escapes := quote == '"'
  if startsTriple quote text then
    (if escapes then .multilineBasic else .multilineLiteral,
      blockStringLength quote escapes (text.drop 3) + 3)
  else
    (if escapes then .basic else .literal, lineStringLength quote escapes (text.drop 1) + 1)

/-- The kind and the length of the token that starts with `c`. -/
def tokenAt (c : Char) (rest : List Char) : TokenKind × Nat :=
  match markKind? c with
  | some kind => (kind, 1)
  | none =>
    if isSpaceOrTab c then (.blank, (rest.takeWhile isSpaceOrTab).length + 1)
    else if c == '\n' then (.newline, 1)
    else if c == '\r' then (.newline, if rest.head? == some '\n' then 2 else 1)
    else if c == '#' then (.comment, (rest.takeWhile (!isLineEnd ·)).length + 1)
    else if c == '\'' || c == '"' then
      let (quoting, length) := stringToken c (c :: rest)
      (.string quoting, length)
    else (.atom, (rest.takeWhile (!endsAtom ·)).length + 1)

/-- The tokens of a text of at most the given length. -/
def tokensFrom : Nat → List Char → List Token
  | 0, _ => []
  | _ + 1, [] => []
  | length + 1, c :: rest =>
    let (kind, size) := tokenAt c rest
    ⟨kind, (c :: rest).take size⟩ :: tokensFrom length ((c :: rest).drop size)

/-- A text without the mark of the byte order that may start it. -/
def withoutByteOrder : List Char → List Char
  | '\uFEFF' :: text => text
  | text => text

/-- The tokens of a text. -/
def tokens (text : String) : List Token :=
  tokensFrom text.length (withoutByteOrder text.toList)

end CiTranslate.Toml

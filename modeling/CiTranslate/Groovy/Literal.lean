/-!
String literals of Groovy: between single or double quotes on one line, or between three
quotes over several lines. A backslash takes the character after it into the literal.

Two functions measure a literal. `literalLength?` is for cleaning scripts: it never fails
at a quote, and lets a literal that is not closed end with its line or with the text.
`quotedLength?` is for reading commands: it only accepts literals that are closed.
-/

namespace CiTranslate.Groovy

def isQuote (c : Char) : Bool := c == '\'' || c == '"'

/-- Whether three quotes follow. -/
def startsTriple (quote : Char) (text : List Char) : Bool :=
  [quote, quote, quote].isPrefixOf text

/-! ### Literals to pass over -/

/-- The length of the rest of a literal on one line, with the closing quote but without a
line end. -/
def lineLength (quote : Char) : List Char → Nat
  | [] => 0
  | '\\' :: _ :: text => lineLength quote text + 2
  | c :: text =>
    if c == '\n' then 0 else if c == quote then 1 else lineLength quote text + 1

/-- The length of the rest of a literal between three quotes. -/
def blockLength (quote : Char) : List Char → Nat
  | [] => 0
  | '\\' :: _ :: text => blockLength quote text + 2
  | c :: text => if startsTriple quote (c :: text) then 3 else blockLength quote text + 1

/-- The length of the literal that a text starts with. -/
def literalLength? : List Char → Option Nat
  | [] => none
  | c :: text =>
    if !isQuote c then none
    else if startsTriple c (c :: text) then some (blockLength c (text.drop 2) + 3)
    else some (lineLength c text + 1)

/-! ### Literals to read -/

/-- The length of the rest of a literal on one line, if it is closed there. -/
def closedLine? (quote : Char) : List Char → Option Nat
  | [] => none
  | '\\' :: c :: text => if c == '\n' then none else (closedLine? quote text).map (· + 2)
  | c :: text =>
    if c == '\n' || c == '\\' then none
    else if c == quote then some 1
    else (closedLine? quote text).map (· + 1)

/-- The length of the rest of a literal between three quotes, if it is closed. -/
def closedBlock? (quote : Char) : List Char → Option Nat
  | [] => none
  | '\\' :: _ :: text => (closedBlock? quote text).map (· + 2)
  | c :: text =>
    if startsTriple quote (c :: text) then some 3
    else if c == '\\' then none
    else (closedBlock? quote text).map (· + 1)

/-- The length of the literal that a text starts with, if it is closed. Of three quotes that
are not closed, the first two are a literal. -/
def quotedLength? : List Char → Option Nat
  | [] => none
  | c :: text =>
    if !isQuote c then none
    else
      let block := if startsTriple c (c :: text) then closedBlock? c (text.drop 2) else none
      match block with
      | some length => some (length + 3)
      | none => (closedLine? c text).map (· + 1)

/-! ### The text of a literal -/

/-- The text between the quotes. -/
def inner (literal : List Char) : List Char :=
  match literal with
  | c :: _ =>
    let width := if startsTriple c literal then 3 else 1
    (literal.drop width).take (literal.length - 2 * width)
  | [] => []

/-- Resolves the escapes of the backslash and the quotes; other backslashes stay. -/
def unescape : List Char → List Char
  | [] => []
  | '\\' :: c :: text =>
    if c == '\\' || isQuote c then c :: unescape text else '\\' :: c :: unescape text
  | c :: text => c :: unescape text

/-- The text that a literal stands for. -/
def unquote (literal : List Char) : List Char := unescape (inner literal)

/-- Escapes the backslash and the single quote. -/
def escape : List Char → List Char
  | [] => []
  | c :: text => if c == '\\' || c == '\'' then '\\' :: c :: escape text else c :: escape text

/-- The literal of a text; text of several lines is put between three quotes. -/
def quote (text : List Char) : List Char :=
  let marks := if text.contains '\n' then ['\'', '\'', '\''] else ['\'']
  marks ++ escape text ++ marks

end CiTranslate.Groovy

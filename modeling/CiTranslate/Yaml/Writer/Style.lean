import CiTranslate.Yaml.Mark
import CiTranslate.Yaml.Scalar

/-!
How a text is written as a YAML scalar: plain, between single or double quotes, or as a
literal block.

A text of several lines becomes a literal block if that can hold it. A text of one line
stays plain when it reads back as itself, is quoted when it would read back as something
else or has indicators of the grammar, and is escaped when quotes alone cannot hold it.
-/

namespace CiTranslate.Yaml

/-- The ways to write a text. -/
inductive WrittenStyle where
  | plain
  | single
  | double
  | literal
  deriving DecidableEq, Repr

/-- Characters that are written as they are. -/
def isPrintable (c : Char) : Bool :=
  let n := c.toNat
  n == 0xa || (0x20 ≤ n && n ≤ 0x7e) || (0xa0 ≤ n && n ≤ 0xd7ff) ||
    (0xe000 ≤ n && n ≤ 0xfffd && n != 0xfeff) || 0x10000 ≤ n

/-- Whether a pair of neighbours satisfies `p`. -/
def anyNeighbours (p : Char → Char → Bool) : List Char → Bool
  | c :: d :: text => p c d || anyNeighbours p (d :: text)
  | _ => false

def isBlankOrBreak (c : Char) : Bool := isSpaceOrTab c || isBreak c

/-- Characters that cannot start a plain scalar. -/
def isFirstIndicator (c : Char) : Bool :=
  "#,[]\x7b\x7d&*!|>'\"%@".toList.contains c || c.toNat == 0x60

/-- Whether a plain scalar would be taken for a part of the grammar. -/
def hasIndicators (text : List Char) : Bool :=
  ['-', '-', '-'].isPrefixOf text || ['.', '.', '.'].isPrefixOf text ||
    (match text with
      | c :: rest => isFirstIndicator c || ((c == '?' || c == '-') && atBlankOrEnd rest)
      | [] => false) ||
    text.getLast? == some ':' ||
    anyNeighbours (fun c d => (c == ':' && isBlankOrBreak d) || (isBlankOrBreak c && d == '#')) text

/-- Whether a text starts or ends with a blank or a line break. -/
def hasOuterBlank (text : List Char) : Bool :=
  let outer (c : Char) : Bool := c == ' ' || isBreak c
  text.head?.any outer || text.getLast?.any outer

def isSpaceBeforeBreak (c d : Char) : Bool := c == ' ' && isBreak d

def isSpaceAfterBreak (c d : Char) : Bool := isBreak c && d == ' '

/-- Whether escapes are needed: quotes and blocks drop blanks at the end of a line. -/
def needsEscapes (text : List Char) : Bool :=
  text.any (fun c => !isPrintable c) || anyNeighbours isSpaceBeforeBreak text

/-- Whether a literal block can hold a text. -/
def literalHolds (text : List Char) : Bool :=
  !needsEscapes text && text.getLast? != some ' '

/-- Whether single quotes can hold a text. -/
def singleHolds (text : List Char) : Bool :=
  !needsEscapes text && !anyNeighbours isSpaceAfterBreak text

/-- Whether a plain scalar can hold a text. -/
def plainHolds (text : List Char) : Bool :=
  !needsEscapes text && !hasOuterBlank text && !text.any isBreak && !hasIndicators text

/-- Whether a plain scalar would be read as the text itself. -/
def readsAsText (text : List Char) : Bool :=
  match Scalar.ofPlain text with
  | .text => !isPadded text
  | _ => false

/-- How a text is written. -/
def styleOf (text : List Char) : WrittenStyle :=
  if text.contains '\n' then if literalHolds text then .literal else .double
  else if readsAsText text && plainHolds text then .plain
  else if singleHolds text then .single
  else .double

end CiTranslate.Yaml

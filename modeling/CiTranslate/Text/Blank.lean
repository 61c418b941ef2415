/-!
Blank characters (the Unicode property White_Space), the trimming of blanks from the ends
of a text, and the division of a text into lines.

A line ends at a line feed, and a carriage return right before the line feed belongs to
the line end. The text after the last line feed is a line only when it is not empty.
-/

namespace CiTranslate.Text

/-- The characters with the Unicode property White_Space. -/
def isBlank (c : Char) : Bool :=
  let n := c.toNat
  (9 ≤ n && n ≤ 13) || n == 0x20 || n == 0x85 || n == 0xa0 || n == 0x1680 ||
    (0x2000 ≤ n && n ≤ 0x200a) || n == 0x2028 || n == 0x2029 || n == 0x202f ||
    n == 0x205f || n == 0x3000

def trimStart (text : List Char) : List Char := text.dropWhile isBlank

def trimEnd (text : List Char) : List Char := (text.reverse.dropWhile isBlank).reverse

def trim (text : List Char) : List Char := trimEnd (trimStart text)

/-- A text of blanks only, the empty text included. -/
def isBlankText (text : List Char) : Bool := text.all isBlank

/-- Drops the carriage return that belongs to the line end; the line is given reversed. -/
def withoutReturn : List Char → List Char
  | '\r' :: line => line
  | line => line

/-- The lines of `text`, of which the characters `line` (nearest first) are already read. -/
def linesFrom (line : List Char) : List Char → List (List Char)
  | [] => if line.isEmpty then [] else [line.reverse]
  | c :: text =>
    if c == '\n' then (withoutReturn line).reverse :: linesFrom [] text
    else linesFrom (c :: line) text

def lines (text : List Char) : List (List Char) := linesFrom [] text

/-- The lines with a line feed between each two. -/
def joinLines (lines : List (List Char)) : List Char :=
  List.intercalate ['\n'] lines

end CiTranslate.Text

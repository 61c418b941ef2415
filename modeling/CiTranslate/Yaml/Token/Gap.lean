import CiTranslate.Yaml.Token

/-!
The blanks and line breaks between the words of a scalar that is not a block. Within a
line they stay as they are; a single line break becomes a blank, and of several line breaks
the first is dropped.
-/

namespace CiTranslate.Yaml

/-- What stands between two words of a scalar. -/
structure Gap where
  /-- Blanks within a line. -/
  blanks : List Char := []
  /-- Whether a line ended in the gap. -/
  broken : Bool := false
  /-- The first line break. -/
  first : List Char := []
  /-- The later line breaks. -/
  more : List Char := []

/-- The characters that the gap puts between the words. -/
def Gap.folded (gap : Gap) : List Char :=
  if gap.broken then
    if gap.first == ['\n'] then (if gap.more.isEmpty then [' '] else gap.more)
    else gap.first ++ gap.more
  else gap.blanks

/-- Reads a gap after what was already read of it. Tabs may not stand left of the column
`indent` of a new line. -/
def Gap.readFrom (indent : Nat) : Nat → Gap → Cursor → Except Mark (Gap × Cursor)
  | 0, gap, cursor => .ok (gap, cursor)
  | steps + 1, gap, cursor =>
    match cursor.rest with
    | [] => .ok (gap, cursor)
    | c :: _ =>
      if isSpaceOrTab c then
        if gap.broken && c == '\t' && cursor.mark.column < indent then .error cursor.mark
        else
          let gap := if gap.broken then gap else { gap with blanks := gap.blanks ++ [c] }
          readFrom indent steps gap cursor.skip
      else if isBreak c then
        let (lineBreak, cursor) := cursor.takeBreak
        let gap :=
          if gap.broken then { gap with more := gap.more ++ lineBreak }
          else { blanks := [], broken := true, first := lineBreak, more := [] }
        readFrom indent steps gap cursor
      else .ok (gap, cursor)

/-- Reads a gap. -/
def Gap.read (gap : Gap) (indent : Nat) (cursor : Cursor) : Except Mark (Gap × Cursor) :=
  Gap.readFrom indent (cursor.rest.length + 1) gap cursor

end CiTranslate.Yaml

import CiTranslate.Yaml.Token.Gap

/-!
Block scalars, literal (`|`) and folded (`>`). The first line that is not empty sets the
indentation unless the header does. The header also says what becomes of the line breaks
at the end: one is kept, or none (`-`), or all (`+`).
-/

namespace CiTranslate.Yaml

/-- What becomes of the line breaks at the end of a block scalar. -/
inductive Chomping where
  | strip
  | clip
  | keep
  deriving DecidableEq, Repr

structure BlockHeader where
  chomping : Chomping := .clip
  /-- The indentation relative to the enclosing block, where the header gives it. -/
  increment : Option Nat := none

def chomping? : List Char → Option Chomping
  | '+' :: _ => some .keep
  | '-' :: _ => some .strip
  | _ => none

/-- Reads the digit for the indentation, which may not be zero. -/
def readIncrement (start : Mark) (cursor : Cursor) : Except Fault (Option Nat × Cursor) :=
  match cursor.rest with
  | c :: _ =>
    if c == '0' then .error (faultSince .blockScalar start .zeroIndentation cursor.mark)
    else if c.isDigit then .ok (some (c.toNat - '0'.toNat), cursor.skip)
    else .ok (none, cursor)
  | [] => .ok (none, cursor)

/-- Reads the two parts of the header in either order. -/
def readHeader (start : Mark) (cursor : Cursor) : Except Fault (BlockHeader × Cursor) :=
  match chomping? cursor.rest with
  | some chomping =>
    (readIncrement start cursor.skip).map fun (increment, cursor) =>
      ({ chomping, increment }, cursor)
  | none =>
    (readIncrement start cursor).map fun (increment, cursor) =>
      match increment, chomping? cursor.rest with
      | some _, some chomping => ({ chomping, increment }, cursor.skip)
      | _, _ => ({ increment }, cursor)

/-- Reads indentation and empty lines. The indentation is 0 while it is not known; then
blanks are passed over without limit, and the widest line is returned as `widest`. -/
def readEmptyLines (indent : Nat) (start : Mark) :
    Nat → Nat → List Char → Mark → Cursor → Except Fault (Nat × List Char × Mark × Cursor)
  | 0, widest, breaks, stop, cursor => .ok (widest, breaks, stop, cursor)
  | steps + 1, widest, breaks, stop, cursor =>
    let limit := if indent = 0 then cursor.rest.length else indent - cursor.mark.column
    let blanks := (cursor.rest.take limit).takeWhile (· == ' ')
    let cursor := cursor.skipMany blanks.length
    let widest := max widest cursor.mark.column
    if (indent = 0 || cursor.mark.column < indent) && cursor.rest.head? == some '\t' then
      .error (faultSince .blockScalar start .tabForIndentation cursor.mark)
    else if cursor.rest.isEmpty || !atBreakOrEnd cursor.rest then
      .ok (widest, breaks, stop, cursor)
    else
      let (lineBreak, cursor) := cursor.takeBreak
      readEmptyLines indent start steps widest (breaks ++ lineBreak) cursor.mark cursor

/-- What was read of a block scalar: its text reversed, and the line breaks after it. -/
structure BlockScalar where
  text : List Char := []
  /-- Whether the last line starts with a blank. -/
  indented : Bool := false
  /-- The break that ended the last line. -/
  lineBreak : List Char := []
  /-- The breaks of the empty lines after it. -/
  emptyLines : List Char := []
  stop : Mark

/-- The line breaks between the last line and the next. A folded scalar joins two lines that
do not start with blanks. -/
def BlockScalar.joint (scalar : BlockScalar) (literal indented : Bool) : List Char :=
  if !literal && scalar.lineBreak == ['\n'] && !scalar.indented && !indented then
    if scalar.emptyLines.isEmpty then [' '] else scalar.emptyLines
  else scalar.lineBreak ++ scalar.emptyLines

/-- Reads lines while they are indented. -/
def readBlockLines (literal : Bool) (indent : Nat) (start : Mark) :
    Nat → BlockScalar → Cursor → Except Fault (BlockScalar × Cursor)
  | 0, scalar, cursor => .ok (scalar, cursor)
  | steps + 1, scalar, cursor =>
    if cursor.mark.column != indent || cursor.rest.isEmpty then .ok (scalar, cursor)
    else
      let indented := cursor.rest.head?.any isSpaceOrTab
      let joint := scalar.joint literal indented
      let (line, cursor) := cursor.takeWhile fun c => !isBreak c
      let (lineBreak, cursor) := cursor.takeBreak
      match readEmptyLines indent start (cursor.rest.length + 1) 0 [] cursor.mark cursor with
      | .error fault => .error fault
      | .ok (_, emptyLines, stop, cursor) =>
        readBlockLines literal indent start steps
          { text := line.reverse ++ joint.reverse ++ scalar.text,
            indented, lineBreak, emptyLines, stop } cursor

/-- The whole text of a block scalar. -/
def BlockScalar.chomped (scalar : BlockScalar) (chomping : Chomping) : List Char :=
  let text := scalar.text.reverse
  match chomping with
  | .strip => text
  | .clip => text ++ scalar.lineBreak
  | .keep => text ++ scalar.lineBreak ++ scalar.emptyLines

/-- Reads a block scalar inside a block of the given indentation, at its indicator. -/
def readBlock (literal : Bool) (parent : Int) (cursor : Cursor) :
    Except Fault (Token × Cursor) :=
  let start := cursor.mark
  match readHeader start cursor.skip with
  | .error fault => .error fault
  | .ok (header, cursor) =>
    let cursor := cursor.skipBlanksAndComment
    if !atBreakOrEnd cursor.rest then
      .error (faultSince .blockScalar start .expectedCommentOrBreak cursor.mark)
    else
      let cursor := cursor.skipBreak
      let known := match header.increment with
        | some n => (max parent 0).toNat + n
        | none => 0
      match readEmptyLines known start (cursor.rest.length + 1) 0 [] cursor.mark cursor with
      | .error fault => .error fault
      | .ok (widest, emptyLines, stop, cursor) =>
        let indent := if known = 0 then max (max widest (parent + 1).toNat) 1 else known
        match readBlockLines literal indent start (cursor.rest.length + 1)
            { emptyLines, stop } cursor with
        | .error fault => .error fault
        | .ok (scalar, cursor) =>
          .ok (⟨.scalar (scalar.chomped header.chomping) .block, start, scalar.stop⟩, cursor)

end CiTranslate.Yaml

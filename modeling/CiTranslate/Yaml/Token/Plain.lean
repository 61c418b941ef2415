import CiTranslate.Yaml.Token.Gap

/-!
Plain scalars. One goes on over the words of following lines as long as these are indented
more than the block it stands in, and ends before a comment, before a colon that a blank
follows and, between brackets, before their punctuation.
-/

namespace CiTranslate.Yaml

def isFlowPunctuation (c : Char) : Bool :=
  c == ',' || c == '[' || c == ']' || c == '\x7b' || c == '\x7d'

/-- Reads a word of a plain scalar. Between brackets a colon may not stand right before
punctuation. -/
def readPlainWord (inFlow : Bool) :
    Nat → List Char → Cursor → Except Mark (List Char × Cursor)
  | 0, read, cursor => .ok (read.reverse, cursor)
  | steps + 1, read, cursor =>
    match cursor.rest with
    | [] => .ok (read.reverse, cursor)
    | c :: rest =>
      if isSpaceOrTab c || isBreak c then .ok (read.reverse, cursor)
      else if inFlow && c == ':' && rest.head?.any (fun d => isFlowPunctuation d || d == '?') then
        .error cursor.mark
      else if (c == ':' && atBlankOrEnd rest) || (inFlow && isFlowPunctuation c) then
        .ok (read.reverse, cursor)
      else readPlainWord inFlow steps (c :: read) cursor.skip

/-- A plain scalar as far as it is read: its text reversed, its end, and the gap after it. -/
structure PlainScalar where
  text : List Char := []
  stop : Mark
  gap : Gap := {}

/-- Reads words and gaps. -/
def readPlainFrom (inFlow : Bool) (indent : Int) (start : Mark) :
    Nat → PlainScalar → Cursor → Except Fault (PlainScalar × Cursor)
  | 0, scalar, cursor => .ok (scalar, cursor)
  | steps + 1, scalar, cursor =>
    if cursor.atDocumentMarker || cursor.rest.head? == some '#' then .ok (scalar, cursor)
    else
      match readPlainWord inFlow (cursor.rest.length + 1) [] cursor with
      | .error mark => .error (faultSince .plainScalar start .unexpectedColon mark)
      | .ok (word, cursor) =>
        let scalar := if word.isEmpty then scalar else
          { text := word.reverse ++ scalar.gap.folded.reverse ++ scalar.text, stop := cursor.mark }
        if cursor.rest.isEmpty || !atBlankOrEnd cursor.rest then .ok (scalar, cursor)
        else
          match ({} : Gap).read indent.toNat cursor with
          | .error mark => .error (faultSince .plainScalar start .tabInIndentation mark)
          | .ok (gap, cursor) =>
            let scalar := { scalar with gap }
            if !inFlow && (cursor.mark.column : Int) < indent then .ok (scalar, cursor)
            else readPlainFrom inFlow indent start steps scalar cursor

/-- Reads a plain scalar inside a block of the given indentation. The flag tells that the
scalar was followed by a line break. -/
def readPlain (inFlow : Bool) (indent : Int) (cursor : Cursor) :
    Except Fault (Token × Cursor × Bool) :=
  (readPlainFrom inFlow (indent + 1) cursor.mark (cursor.rest.length + 1)
      { stop := cursor.mark } cursor).map fun (scalar, after) =>
    (⟨.scalar scalar.text.reverse .plain, cursor.mark, scalar.stop⟩, after, scalar.gap.broken)

end CiTranslate.Yaml

import CiTranslate.Yaml.Token.Quoted

/-!
Directives, anchors and tags. Octets that a tag writes as escapes stand for the characters
of the same number. A tag ends at the first octet that is zero.
-/

namespace CiTranslate.Yaml

/-! ### Names of anchors and aliases -/

/-- What may follow an anchor or an alias. -/
def endsAnchor (text : List Char) : Bool :=
  atBlankOrEnd text ||
    text.head?.any fun c => c == '?' || c == ':' || c == ',' || c == ']' || c == '\x7d' ||
      c == '%' || c == '@' || c.toNat == 0x60

/-- Reads an anchor or an alias at its indicator. -/
def readAnchor (isAlias : Bool) (cursor : Cursor) : Except Fault (Token × Cursor) :=
  let (name, after) := cursor.skip.takeWhile isNameChar
  if name.isEmpty || !endsAnchor after.rest then
    .error (faultSince (if isAlias then .alias else .anchor) cursor.mark .expectedNameChar
      after.mark)
  else
    .ok (⟨if isAlias then .alias name else .anchor name, cursor.mark, after.mark⟩, after)

/-! ### Tags -/

/-- The characters of a tag. A verbatim tag may have three more. -/
def isTagChar (verbatim : Bool) (c : Char) : Bool :=
  isNameChar c || ";/?:@&=+$.%!~*'()".toList.contains c ||
    (verbatim && (c == ',' || c == '[' || c == ']'))

/-- The octet written as `%` and two hexadecimal digits at the start of the text. -/
def escapedOctet? : List Char → Option Nat
  | '%' :: text => Text.naturalOf? 16 2 text
  | _ => none

/-- The number of octets of the character whose first octet this is. -/
def octetCount? (octet : Nat) : Option Nat :=
  if octet < 0x80 then some 1
  else if octet < 0xc0 then none
  else if octet < 0xe0 then some 2
  else if octet < 0xf0 then some 3
  else if octet < 0xf8 then some 4
  else none

/-- Reads the `count` further octets of a character; `read` holds those before, last first. -/
def readTrailingOctets : Nat → List Char → Cursor → Except (Problem × Mark) (List Char × Cursor)
  | 0, read, cursor => .ok (read, cursor)
  | count + 1, read, cursor =>
    match escapedOctet? cursor.rest with
    | none => .error (.expectedEscapedOctet, cursor.mark)
    | some octet =>
      if octet / 64 = 2 then
        readTrailingOctets count (Char.ofNat octet :: read) (cursor.skipMany 3)
      else .error (.badTrailingOctet, cursor.mark)

/-- Reads a character that is written as escaped octets. -/
def readEscapedChar (read : List Char) (cursor : Cursor) :
    Except (Problem × Mark) (List Char × Cursor) :=
  match escapedOctet? cursor.rest with
  | none => .error (.expectedEscapedOctet, cursor.mark)
  | some octet =>
    match octetCount? octet with
    | none => .error (.badLeadingOctet, cursor.mark)
    | some count =>
      readTrailingOctets (count - 1) (Char.ofNat octet :: read) (cursor.skipMany 3)

/-- Reads the text of a tag; `read` is what was read before, last character first. -/
def readTagText (verbatim : Bool) :
    Nat → List Char → Cursor → Except (Problem × Mark) (List Char × Cursor)
  | 0, read, cursor => .ok (read.reverse, cursor)
  | steps + 1, read, cursor =>
    match cursor.rest with
    | [] => .ok (read.reverse, cursor)
    | c :: _ =>
      if c == '%' then
        match readEscapedChar read cursor with
        | .error fault => .error fault
        | .ok (read, cursor) => readTagText verbatim steps read cursor
      else if isTagChar verbatim c then readTagText verbatim steps (c :: read) cursor.skip
      else .ok (read.reverse, cursor)

/-- The text of a tag without what stands after an octet that is zero. -/
def upToZero (text : List Char) : List Char := text.takeWhile (·.toNat != 0)

/-- Reads the text of a tag after the handle `head`, of which it takes up all but the first
character. Without a handle nothing is no text. -/
def readTagTextAfter (verbatim : Bool) (head : List Char) (cursor : Cursor) :
    Except (Problem × Mark) (List Char × Cursor) :=
  match readTagText verbatim (cursor.rest.length + 1) head.tail.reverse cursor with
  | .error fault => .error fault
  | .ok (text, after) =>
    if head.isEmpty && text.isEmpty then .error (.expectedTagText, after.mark)
    else .ok (upToZero text, after)

/-- The start of a tag up to a second exclamation mark. -/
def readHandle (cursor : Cursor) : List Char × Cursor :=
  let (name, after) := cursor.skip.takeWhile isNameChar
  match after.rest with
  | '!' :: _ => ('!' :: name ++ ['!'], after.skip)
  | _ => ('!' :: name, after)

/-- A handle that is more than a single exclamation mark ends with one. -/
def isNamedHandle (handle : List Char) : Bool := handle.length > 1 && handle.getLast? == some '!'

/-- Reads a tag that is written in full, between `<` and `>`. -/
def readVerbatimTag (cursor : Cursor) : Except Fault (TagName × Cursor) :=
  match readTagTextAfter true [] (cursor.skipMany 2) with
  | .error (problem, mark) => .error (faultSince .tagText cursor.mark problem mark)
  | .ok (suffix, after) =>
    if after.rest.head? == some '>' then .ok (⟨[], suffix⟩, after.skip)
    else .error (faultSince .tag cursor.mark .expectedTagEnd after.mark)

/-- Reads a tag with or without a named handle. A lone exclamation mark is the tag itself. -/
def readShortTag (cursor : Cursor) : Except Fault (TagName × Cursor) :=
  let (handle, after) := readHandle cursor
  let named := isNamedHandle handle
  match readTagTextAfter false (if named then [] else handle) after with
  | .error (problem, mark) => .error (faultSince .tagText cursor.mark problem mark)
  | .ok (suffix, after) =>
    if named then .ok (⟨handle, suffix⟩, after)
    else if suffix.isEmpty then .ok (⟨[], ['!']⟩, after)
    else .ok (⟨['!'], suffix⟩, after)

/-- Reads a tag at its exclamation mark. -/
def readTag (inFlow : Bool) (cursor : Cursor) : Except Fault (Token × Cursor) :=
  let verbatim := match cursor.rest with
    | _ :: '<' :: _ => true
    | _ => false
  match (if verbatim then readVerbatimTag else readShortTag) cursor with
  | .error fault => .error fault
  | .ok (name, after) =>
    if atBlankOrEnd after.rest || (inFlow && after.rest.head? == some ',') then
      .ok (⟨.tag name, cursor.mark, after.mark⟩, after)
    else .error (faultSince .tag cursor.mark .expectedBlankOrBreak after.mark)

/-! ### Directives -/

/-- Reads one of the two numbers of a version, of at most nine digits. -/
def readVersionNumber (start : Mark) (cursor : Cursor) : Except Fault (Nat × Cursor) :=
  let (digits, after) := cursor.takeWhile Char.isDigit
  if digits.length > 9 then
    .error (faultSince .versionDirective start .longVersion (cursor.skipMany 9).mark)
  else if digits.isEmpty then
    .error (faultSince .versionDirective start .expectedVersion cursor.mark)
  else .ok (Text.decimal digits, after)

/-- Reads the version of a `%YAML` directive. -/
def readVersion (start : Mark) (cursor : Cursor) : Except Fault (TokenKind × Cursor) := do
  let (major, cursor) ← readVersionNumber start (cursor.skipWhile isSpaceOrTab)
  if cursor.rest.head? != some '.' then
    throw (faultSince .versionDirective start .expectedVersionDot cursor.mark)
  let (minor, cursor) ← readVersionNumber start cursor.skip
  return (.version major minor, cursor)

/-- Reads the handle of a `%TAG` directive. -/
def readDirectiveHandle (start : Mark) (cursor : Cursor) : Except Fault (List Char × Cursor) :=
  if cursor.rest.head? != some '!' then
    .error (faultSince .tagDirectiveStart start .expectedHandleMark cursor.mark)
  else
    let (handle, after) := readHandle cursor
    if isNamedHandle handle || handle == ['!'] then .ok (handle, after)
    else .error (faultSince .tagDirectiveHandle start .expectedHandleMark after.mark)

/-- Reads the handle and the expansion of a `%TAG` directive. -/
def readTagDirective (start : Mark) (cursor : Cursor) : Except Fault (TokenKind × Cursor) := do
  let (handle, cursor) ← readDirectiveHandle start (cursor.skipWhile isSpaceOrTab)
  if !cursor.rest.head?.any isSpaceOrTab then
    throw (faultSince .tagDirective start .expectedBlank cursor.mark)
  match readTagTextAfter true [] (cursor.skipWhile isSpaceOrTab) with
  | .error (problem, mark) => throw (faultSince .tagDirectivePrefix start problem mark)
  | .ok (expansion, cursor) =>
    if !atBlankOrEnd cursor.rest then
      throw (faultSince .tagDirective start .expectedBlankOrBreak cursor.mark)
    return (.tagDirective handle expansion, cursor)

/-- Reads the name of a directive. -/
def readDirectiveName (start : Mark) (cursor : Cursor) : Except Fault (List Char × Cursor) :=
  let (name, after) := cursor.takeWhile isNameChar
  if name.isEmpty then .error (faultSince .directive start .expectedDirectiveName after.mark)
  else if !atBlankOrEnd after.rest then
    .error (faultSince .directive start .nonAlphabetic after.mark)
  else .ok (name, after)

/-- Reads a directive at its percent sign, and the rest of its line. -/
def readDirective (cursor : Cursor) : Except Fault (Token × Cursor) := do
  let start := cursor.mark
  let (name, after) ← readDirectiveName start cursor.skip
  let (kind, after) ←
    if name == "YAML".toList then readVersion start after
    else if name == "TAG".toList then readTagDirective start after
    else throw (faultSince .directive start .unknownDirective after.mark)
  let token : Token := ⟨kind, start, after.mark⟩
  let after := after.skipBlanksAndComment
  if !atBreakOrEnd after.rest then
    throw (faultSince .directive start .expectedCommentOrBreak after.mark)
  return (token, after.skipBreak)

end CiTranslate.Yaml

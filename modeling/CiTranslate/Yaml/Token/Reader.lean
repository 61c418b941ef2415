import CiTranslate.Yaml.Token.Tag
import CiTranslate.Yaml.Token.Plain
import CiTranslate.Yaml.Token.Block

/-!
The tokens of a text.

What starts like a value turns out to be a key only when its colon is met, on the same line
and at most 1024 characters later. Until then the tokens from there on are pending: a key
token, and in front of it the start of a block mapping, may still have to be put before
them. Settled tokens are final, so that a fault leaves those before it as they are.
-/

namespace CiTranslate.Yaml

/-- A place where a key may have started. -/
structure KeyCandidate where
  /-- Whether the text is wrong if there is no key at this place. -/
  required : Bool
  /-- The number of tokens before the place. -/
  number : Nat
  mark : Mark
  deriving Repr

/-- What is known at a place between two tokens. -/
structure Scan where
  cursor : Cursor
  /-- Tokens that are final, the last one first. -/
  settled : List Token := []
  settledCount : Nat := 0
  pending : List Token := []
  /-- The column of the innermost block, or −1 outside of all blocks. -/
  indent : Int := -1
  /-- The columns of the blocks around it. -/
  outer : List Int := []
  /-- The place of a key for each open bracket, the innermost first, and one for the block
  that they stand in. -/
  candidates : List (Option KeyCandidate) := [none]
  /-- Whether a key may start here. -/
  keyAllowed : Bool := true

namespace Scan

/-- Whether the place is between brackets. -/
def inFlow (scan : Scan) : Bool := scan.candidates.length > 1

def push (scan : Scan) (token : Token) : Scan := { scan with pending := scan.pending ++ [token] }

/-- Puts a token before the pending token of the given number. -/
def insertAt (scan : Scan) (number : Nat) (token : Token) : Scan :=
  let before := number - scan.settledCount
  { scan with pending := scan.pending.take before ++ token :: scan.pending.drop before }

/-! ### Keys -/

def missingColon (candidate : KeyCandidate) (mark : Mark) : Fault :=
  faultSince .simpleKey candidate.mark .expectedColon mark

/-- Whether the colon can no longer follow. -/
def isStale (candidate : KeyCandidate) (mark : Mark) : Bool :=
  candidate.mark.line < mark.line || candidate.mark.index + 1024 < mark.index

/-- Gives up the candidates whose colon can no longer follow. -/
def dropStale (scan : Scan) : Except Fault Scan :=
  let stale := scan.candidates.reverse.filterMap (·.filter fun candidate =>
    candidate.required && isStale candidate scan.cursor.mark)
  match stale with
  | candidate :: _ => .error (missingColon candidate scan.cursor.mark)
  | [] => .ok { scan with
      candidates := scan.candidates.map (·.filter fun candidate =>
        !isStale candidate scan.cursor.mark) }

/-- Gives up the innermost candidate. -/
def dropCandidate (scan : Scan) : Except Fault Scan :=
  match scan.candidates with
  | some candidate :: others =>
    if candidate.required then .error (missingColon candidate scan.cursor.mark)
    else .ok { scan with candidates := none :: others }
  | _ => .ok scan

/-- Notes that a key may start here. In a block, what stands in the column of the keys has
to be one. -/
def noteKey (scan : Scan) : Except Fault Scan :=
  if scan.keyAllowed then
    scan.dropCandidate.map fun scan =>
      let candidate : KeyCandidate :=
        { required := !scan.inFlow && scan.indent == scan.cursor.mark.column
          number := scan.settledCount + scan.pending.length
          mark := scan.cursor.mark }
      { scan with candidates := some candidate :: scan.candidates.tail }
  else .ok scan

/-! ### Blocks -/

/-- Opens a block in a column right of the innermost one; its token comes last or, for a key
found late, before the token of the given number. -/
def openBlock (scan : Scan) (column : Nat) (number : Option Nat) (kind : TokenKind)
    (mark : Mark) : Scan :=
  if scan.inFlow || (column : Int) ≤ scan.indent then scan
  else
    let token : Token := ⟨kind, mark, mark⟩
    let scan := { scan with indent := column, outer := scan.indent :: scan.outer }
    match number with
    | none => scan.push token
    | some number => scan.insertAt number token

/-- Closes the blocks right of a column. -/
def closeBlocksFrom (column : Int) : List Int → Scan → Scan
  | [], scan => scan
  | parent :: outer, scan =>
    if scan.indent ≤ column then scan
    else
      closeBlocksFrom column outer
        ({ scan with indent := parent, outer }.push
          ⟨.blockEnd, scan.cursor.mark, scan.cursor.mark⟩)

def closeBlocks (scan : Scan) (column : Int) : Scan :=
  if scan.inFlow then scan else closeBlocksFrom column scan.outer scan

/-! ### One token -/

/-- Adds a token that was read from here on. -/
def accept (scan : Scan) (keyAllowed : Bool) (read : Token × Cursor) : Scan :=
  { scan with cursor := read.2, keyAllowed }.push read.1

/-- Adds a token of `length` characters. -/
def acceptMark (scan : Scan) (keyAllowed : Bool) (length : Nat) (kind : TokenKind) : Scan :=
  let after := scan.cursor.skipMany length
  scan.accept keyAllowed (⟨kind, scan.cursor.mark, after.mark⟩, after)

/-- A fault that does not belong to anything larger. -/
def bareFault (scan : Scan) (problem : Problem) : Fault := { problem, mark := scan.cursor.mark }

def readStreamEnd (scan : Scan) : Except Fault Scan :=
  let mark := scan.cursor.mark
  let mark := if mark.column = 0 then mark else ⟨mark.index, mark.line + 1, 0⟩
  let scan : Scan := { scan with cursor := { scan.cursor with mark } }
  (scan.closeBlocks (-1)).dropCandidate.map (·.acceptMark false 0 .streamEnd)

def readDirectiveToken (scan : Scan) : Except Fault Scan := do
  let scan ← (scan.closeBlocks (-1)).dropCandidate
  return scan.accept false (← readDirective scan.cursor)

def readDocumentMarker (scan : Scan) (kind : TokenKind) : Except Fault Scan :=
  (scan.closeBlocks (-1)).dropCandidate.map (·.acceptMark false 3 kind)

def readFlowStart (scan : Scan) (kind : TokenKind) : Except Fault Scan :=
  scan.noteKey.map fun scan =>
    { scan with candidates := none :: scan.candidates }.acceptMark true 1 kind

def readFlowEnd (scan : Scan) (kind : TokenKind) : Except Fault Scan :=
  scan.dropCandidate.map fun scan =>
    let candidates := if scan.inFlow then scan.candidates.tail else scan.candidates
    { scan with candidates }.acceptMark false 1 kind

def readFlowEntry (scan : Scan) : Except Fault Scan :=
  scan.dropCandidate.map (·.acceptMark true 1 .flowEntry)

def readBlockEntry (scan : Scan) : Except Fault Scan := do
  let mark := scan.cursor.mark
  if !scan.inFlow && !scan.keyAllowed then throw (scan.bareFault .noBlockEntryHere)
  let scan ← (scan.openBlock mark.column none .blockSequenceStart mark).dropCandidate
  return scan.acceptMark true 1 .blockEntry

def readKey (scan : Scan) : Except Fault Scan := do
  let mark := scan.cursor.mark
  if !scan.inFlow && !scan.keyAllowed then throw (scan.bareFault .noKeyHere)
  let scan ← (scan.openBlock mark.column none .blockMappingStart mark).dropCandidate
  return scan.acceptMark (!scan.inFlow) 1 .key

/-- Reads the colon before a value. If a key may have started before, it did. -/
def readValue (scan : Scan) : Except Fault Scan :=
  let mark := scan.cursor.mark
  match scan.candidates with
  | some candidate :: others =>
    let scan := scan.insertAt candidate.number ⟨.key, candidate.mark, candidate.mark⟩
    let scan := scan.openBlock candidate.mark.column (some candidate.number)
      .blockMappingStart candidate.mark
    .ok ({ scan with candidates := none :: others }.acceptMark false 1 .value)
  | _ =>
    if !scan.inFlow && !scan.keyAllowed then .error (scan.bareFault .noValueHere)
    else
      let scan := scan.openBlock mark.column none .blockMappingStart mark
      .ok (scan.acceptMark (!scan.inFlow) 1 .value)

def readName (scan : Scan) (isAlias : Bool) : Except Fault Scan := do
  let scan ← scan.noteKey
  return scan.accept false (← readAnchor isAlias scan.cursor)

def readTagToken (scan : Scan) : Except Fault Scan := do
  let scan ← scan.noteKey
  return scan.accept false (← readTag scan.inFlow scan.cursor)

def readBlockToken (scan : Scan) (literal : Bool) : Except Fault Scan := do
  let scan ← scan.dropCandidate
  return scan.accept true (← readBlock literal scan.indent scan.cursor)

def readQuotedToken (scan : Scan) (quote : Char) : Except Fault Scan := do
  let scan ← scan.noteKey
  return scan.accept false (← readQuoted quote scan.cursor)

def readPlainToken (scan : Scan) : Except Fault Scan := do
  let scan ← scan.noteKey
  let (token, cursor, broken) ← readPlain scan.inFlow scan.indent scan.cursor
  return scan.accept broken (token, cursor)

/-- The characters that start something else than a plain scalar. -/
def isIndicator (c : Char) : Bool :=
  "-?:,[]\x7b\x7d#&*!|>'\"%@".toList.contains c || c.toNat == 0x60

/-- Whether a plain scalar starts with `c` when `rest` follows. -/
def startsPlain (inFlow : Bool) (c : Char) (rest : List Char) : Bool :=
  !(isSpaceOrTab c || isBreak c || isIndicator c) ||
    (c == '-' && !rest.head?.any isSpaceOrTab) ||
    (!inFlow && (c == '?' || c == ':') && !atBlankOrEnd rest)

/-- Passes over blanks, comments and line breaks. Where a key may start in a block, tabs are
no blanks; after a line break in a block a key may start. -/
def skipBlank : Nat → Scan → Scan
  | 0, scan => scan
  | steps + 1, scan =>
    let cursor := scan.cursor
    let cursor :=
      if cursor.mark.column = 0 && cursor.rest.head? == some byteOrderMark then cursor.skip
      else cursor
    let tabs := scan.inFlow || !scan.keyAllowed
    let cursor := cursor.skipWhile fun c => c == ' ' || (tabs && c == '\t')
    let cursor :=
      if cursor.rest.head? == some '#' then cursor.skipWhile fun c => !isBreak c else cursor
    if cursor.rest.head?.any isBreak then
      skipBlank steps { scan with
        cursor := cursor.skipBreak, keyAllowed := scan.keyAllowed || !scan.inFlow }
    else { scan with cursor }

/-- Reads the token that the place starts with. -/
def readHere (scan : Scan) : Except Fault Scan :=
  match scan.cursor.rest with
  | [] => scan.readStreamEnd
  | c :: rest =>
    if scan.cursor.mark.column = 0 && c == '%' then scan.readDirectiveToken
    else if scan.cursor.atMarker '-' then scan.readDocumentMarker .documentStart
    else if scan.cursor.atMarker '.' then scan.readDocumentMarker .documentEnd
    else if c == '[' then scan.readFlowStart .flowSequenceStart
    else if c == '\x7b' then scan.readFlowStart .flowMappingStart
    else if c == ']' then scan.readFlowEnd .flowSequenceEnd
    else if c == '\x7d' then scan.readFlowEnd .flowMappingEnd
    else if c == ',' then scan.readFlowEntry
    else if c == '-' && atBlankOrEnd rest then scan.readBlockEntry
    else if c == '?' && (scan.inFlow || atBlankOrEnd rest) then scan.readKey
    else if c == ':' && (scan.inFlow || atBlankOrEnd rest) then scan.readValue
    else if c == '*' then scan.readName true
    else if c == '&' then scan.readName false
    else if c == '!' then scan.readTagToken
    else if c == '|' && !scan.inFlow then scan.readBlockToken true
    else if c == '>' && !scan.inFlow then scan.readBlockToken false
    else if c == '\'' || c == '"' then scan.readQuotedToken c
    else if startsPlain scan.inFlow c rest then scan.readPlainToken
    else .error (faultSince .nextToken scan.cursor.mark .noTokenStart scan.cursor.mark)

/-- Reads the next token, after those that end the blocks left of which it stands. At most
`lines` line breaks are passed over before it. -/
def readNext (lines : Nat) (scan : Scan) : Except Fault Scan := do
  let scan ← (scan.skipBlank lines).dropStale
  (scan.closeBlocks scan.cursor.mark.column).readHere

/-! ### All tokens -/

/-- Settles the pending tokens that no key can be put before. -/
def settlePending : List Token → Scan → Scan
  | [], scan => { scan with pending := [] }
  | token :: pending, scan =>
    if scan.candidates.any (·.any fun candidate => candidate.number == scan.settledCount) then
      { scan with pending := token :: pending }
    else
      settlePending pending { scan with
        settled := token :: scan.settled, settledCount := scan.settledCount + 1 }

def settle (scan : Scan) : Except Fault Scan :=
  if scan.pending.isEmpty then .ok scan
  else scan.dropStale.map fun scan => settlePending scan.pending scan

end Scan

/-- The tokens of a text up to its end or to the first fault. -/
structure Tokens where
  tokens : List Token
  fault? : Option Fault := none

/-- Reads tokens to the end; every step reads at least one character, so that there are more
steps left than characters. -/
def Tokens.readFrom : Nat → Scan → Tokens
  | 0, scan => ⟨scan.settled.reverse, none⟩
  | steps + 1, scan =>
    match scan.settled with
    | ⟨.streamEnd, _, _⟩ :: _ => ⟨scan.settled.reverse, none⟩
    | _ =>
      match scan.readNext (steps + 1) with
      | .error fault => ⟨scan.settled.reverse, some fault⟩
      | .ok scan =>
        match scan.settle with
        | .error fault => ⟨scan.settled.reverse, some fault⟩
        | .ok scan => readFrom steps scan

/-- Characters that may stand in a text. -/
def isAllowed (c : Char) : Bool :=
  let n := c.toNat
  n == 0x9 || n == 0xa || n == 0xd || (0x20 ≤ n && n ≤ 0x7e) || n == 0x85 ||
    (0xa0 ≤ n && n ≤ 0xd7ff) || (0xe000 ≤ n && n ≤ 0xfffd) || (0x10000 ≤ n && n ≤ 0x10ffff)

/-- The tokens of a text. A text with a forbidden character has none. -/
def Tokens.ofText (text : String) : Tokens :=
  let start : Token := ⟨.streamStart, {}, {}⟩
  let allowed := text.toList.takeWhile isAllowed
  if allowed.length < text.length then
    ⟨[start], some {
      problem := .controlCharacter, mark := {}, offset := (String.ofList allowed).utf8ByteSize }⟩
  else
    Tokens.readFrom (text.length + 2)
      { cursor := ⟨text.toList, {}⟩, settled := [start], settledCount := 1 }

end CiTranslate.Yaml

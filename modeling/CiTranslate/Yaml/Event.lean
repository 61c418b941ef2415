import CiTranslate.Yaml.Token.Reader

/-!
The structure of a YAML text as events: scalars, aliases, and the starts and ends of
collections.

What may come next is a stack of expectations; the collections that are open are the lower
part of it. Each step meets the topmost expectation, reading tokens and reporting one event.
-/

namespace CiTranslate.Yaml

/-- What a node carries besides its content. -/
structure Properties where
  anchor : Option (List Char) := none
  tag : Option (List Char) := none
  deriving DecidableEq, Repr

inductive EventKind where
  | streamEnd
  | documentStart
  | documentEnd
  | alias (name : List Char)
  | scalar (properties : Properties) (text : List Char) (style : Style)
  | sequenceStart (properties : Properties)
  | sequenceEnd
  | mappingStart (properties : Properties)
  | mappingEnd
  deriving DecidableEq, Repr

structure Event where
  kind : EventKind
  mark : Mark
  deriving Repr

/-- Where a node stands: in a block, in a block where the entries of a sequence need not be
indented, or between brackets. -/
inductive Place where
  | block
  | blockMapping
  | flow
  deriving DecidableEq, Repr

/-- What may come next. The mark of a collection is where it starts. -/
inductive Expected where
  /-- A document; after the first one, its start has to be marked. -/
  | document (marked : Bool)
  | documentContent
  | documentEnd
  | node (place : Place)
  | blockEntry (since : Mark)
  /-- An entry of a sequence that is not indented more than the mapping around it. -/
  | looseEntry
  | blockKey (since : Mark)
  | blockValue
  | flowEntry (since : Mark) (first : Bool)
  /-- The key of a single pair between square brackets, its value, and its end. -/
  | pairKey
  | pairValue
  | pairEnd
  | flowKey (since : Mark) (first : Bool)
  | flowValue
  /-- The value of a key without a colon. -/
  | flowNoValue
  deriving DecidableEq, Repr

/-- The handles of tags that are known without a directive. -/
def coreHandles : List (List Char × List Char) :=
  [(['!'], ['!']), (['!', '!'], "tag:yaml.org,2002:".toList)]

/-- The tokens that are still to be read, what is expected of them, and the known handles. -/
structure Outline where
  tokens : List Token
  expected : List Expected
  handles : List (List Char × List Char) := coreHandles

/-- A step reports an event, unless a fault is met or the tokens run out. -/
abbrev Outline.Step := Except (Option Fault) (Event × Outline)

namespace Outline

/-- Goes on with the next token. -/
def next (outline : Outline) (f : Token → Outline → Step) : Step :=
  match outline.tokens with
  | [] => .error none
  | token :: tokens => f token { outline with tokens }

/-- Goes on with the next token, which stays to be read. -/
def peek (outline : Outline) (f : Token → Step) : Step :=
  match outline.tokens with
  | [] => .error none
  | token :: _ => f token

def expect (outline : Outline) (expected : List Expected) : Outline :=
  { outline with expected := expected ++ outline.expected }

def report (outline : Outline) (kind : EventKind) (mark : Mark) : Step :=
  .ok (⟨kind, mark⟩, outline)

/-- A node without any text. -/
def reportEmpty (outline : Outline) (mark : Mark) : Step :=
  outline.report (.scalar {} [] .plain) mark

def fail (problem : Problem) (mark : Mark) : Step := .error (some { problem, mark })

def failSince (activity : Activity) (since : Mark) (problem : Problem) (mark : Mark) : Step :=
  .error (some (faultSince activity since problem mark))

/-! ### Nodes -/

/-- What stands before the content of a node, and where its tag stands. -/
structure Preamble where
  anchor : Option (List Char) := none
  tag : Option (TagName × Mark) := none

/-- Takes an anchor and a tag, in either order, from the front of the tokens. -/
def takePreamble : List Token → Preamble × List Token
  | ⟨.anchor name, _, _⟩ :: ⟨.tag tag, mark, _⟩ :: rest => (⟨some name, some (tag, mark)⟩, rest)
  | ⟨.tag tag, mark, _⟩ :: ⟨.anchor name, _, _⟩ :: rest => (⟨some name, some (tag, mark)⟩, rest)
  | ⟨.anchor name, _, _⟩ :: rest => (⟨some name, none⟩, rest)
  | ⟨.tag tag, mark, _⟩ :: rest => (⟨none, some (tag, mark)⟩, rest)
  | tokens => ({}, tokens)

/-- The tag that a name stands for; a name without a handle is the tag itself. -/
def tagOf? (handles : List (List Char × List Char)) (name : TagName) : Option (List Char) :=
  if name.handle.isEmpty then some name.suffix
  else (handles.lookup name.handle).map (· ++ name.suffix)

/-- The tag of a scalar; a lone exclamation mark is none. -/
def scalarTag (tag : Option (List Char)) : Option (List Char) := tag.filter (· != ['!'])

/-- Reads the start of a node's content, whose anchor and tag are already read. -/
def content (place : Place) (properties : Properties) (start : Mark) (outline : Outline) : Step :=
  outline.next fun token after =>
    match place, token.kind with
    | .blockMapping, .blockEntry =>
      (outline.expect [.looseEntry]).report (.sequenceStart properties) start
    | _, .scalar text style =>
      let properties := { properties with tag := scalarTag properties.tag }
      after.report (.scalar properties text style) start
    | _, .flowSequenceStart =>
      (after.expect [.flowEntry token.start true]).report (.sequenceStart properties) start
    | _, .flowMappingStart =>
      (after.expect [.flowKey token.start true]).report (.mappingStart properties) start
    | .flow, _ => empty token
    | _, .blockSequenceStart =>
      (after.expect [.blockEntry token.start]).report (.sequenceStart properties) start
    | _, .blockMappingStart =>
      (after.expect [.blockKey token.start]).report (.mappingStart properties) start
    | _, _ => empty token
where
  empty (token : Token) : Step :=
    if properties.anchor.isSome || properties.tag.isSome then
      outline.report (.scalar properties [] .plain) start
    else
      failSince (if place = .flow then .flowNode else .blockNode) start .expectedContent
        token.start

/-- Reads a node up to the start of its content. -/
def node (place : Place) (outline : Outline) : Step :=
  outline.next fun first after =>
    match first.kind with
    | .alias name => after.report (.alias name) first.start
    | _ =>
      let (preamble, tokens) := takePreamble outline.tokens
      let outline := { outline with tokens }
      outline.peek fun _ =>
        match preamble.tag with
        | none => outline.content place { anchor := preamble.anchor } first.start
        | some (name, mark) =>
          match tagOf? outline.handles name with
          | some tag =>
            outline.content place { anchor := preamble.anchor, tag := some tag } first.start
          | none => failSince .node first.start .undefinedHandle mark

/-! ### Documents -/

/-- Reads the directives before a document, and goes on with those that were read. -/
def directives (version : Bool) (handles : List (List Char × List Char)) :
    List Token → Except (Option Fault) (List (List Char × List Char) × List Token)
  | ⟨.version major minor, mark, _⟩ :: rest =>
    if version then .error (some { problem := .duplicateVersion, mark })
    else if major = 1 ∧ (minor = 1 ∨ minor = 2) then directives true handles rest
    else .error (some { problem := .incompatibleVersion, mark })
  | ⟨.tagDirective handle expansion, mark, _⟩ :: rest =>
    if (handles.lookup handle).isSome then
      .error (some { problem := .duplicateTagDirective, mark })
    else directives version (handles ++ [(handle, expansion)]) rest
  | [] => .error none
  | tokens => .ok (handles ++ coreHandles, tokens)

def isDocumentEnd (token : Token) : Bool := token.kind == .documentEnd

/-- Whether a document that is not marked ends, or cannot start, at a token. -/
def TokenKind.boundsDocument : TokenKind → Bool
  | .version .. | .tagDirective .. | .documentStart | .streamEnd => true
  | _ => false

/-- Reads the start of a document, or the end of the text. -/
def document (marked : Bool) (outline : Outline) : Step :=
  let tokens := if marked then outline.tokens.dropWhile isDocumentEnd else outline.tokens
  let outline : Outline := { outline with tokens }
  outline.next fun token after =>
    if token.kind == .streamEnd then after.report .streamEnd token.start
    else if !marked && !TokenKind.boundsDocument token.kind then
      (outline.expect [.node .block, .documentEnd]).report .documentStart token.start
    else
      match directives false [] tokens with
      | .error fault => .error fault
      | .ok (handles, tokens) =>
        let outline : Outline := { outline with tokens, handles }
        outline.next fun start after =>
          if start.kind == .documentStart then
            (after.expect [.documentContent, .documentEnd]).report .documentStart token.start
          else fail .expectedDocumentStart start.start

/-- Reads what a marked document holds, which may be nothing. -/
def documentContent (outline : Outline) : Step :=
  outline.peek fun token =>
    if TokenKind.boundsDocument token.kind || isDocumentEnd token then
      outline.reportEmpty token.start
    else outline.node .block

def documentEnd (outline : Outline) : Step :=
  outline.next fun token after =>
    let outline := if isDocumentEnd token then after else outline
    { outline.expect [.document true] with handles := coreHandles }.report .documentEnd token.start

/-! ### Collections in blocks -/

def blockEntry (since : Mark) (outline : Outline) : Step :=
  outline.next fun token after =>
    match token.kind with
    | .blockEntry =>
      let after := after.expect [.blockEntry since]
      after.peek fun following =>
        match following.kind with
        | .blockEntry | .blockEnd => after.reportEmpty token.stop
        | _ => after.node .block
    | .blockEnd => after.report .sequenceEnd token.start
    | _ => failSince .blockSequence since .expectedDash token.start

def looseEntry (outline : Outline) : Step :=
  outline.next fun token after =>
    match token.kind with
    | .blockEntry =>
      let after := after.expect [.looseEntry]
      after.peek fun following =>
        match following.kind with
        | .blockEntry | .key | .value | .blockEnd => after.reportEmpty token.stop
        | _ => after.node .block
    | _ => outline.report .sequenceEnd token.start

def blockKey (since : Mark) (outline : Outline) : Step :=
  outline.next fun token after =>
    match token.kind with
    | .key =>
      let after := after.expect [.blockValue, .blockKey since]
      after.peek fun following =>
        match following.kind with
        | .key | .value | .blockEnd => after.reportEmpty token.stop
        | _ => after.node .blockMapping
    | .blockEnd => after.report .mappingEnd token.start
    | _ => failSince .blockMapping since .expectedKey token.start

def blockValue (outline : Outline) : Step :=
  outline.next fun token after =>
    match token.kind with
    | .value =>
      after.peek fun following =>
        match following.kind with
        | .key | .value | .blockEnd => after.reportEmpty token.stop
        | _ => after.node .blockMapping
    | _ => outline.reportEmpty token.start

/-! ### Collections between brackets -/

/-- Passes the comma before all entries but the first. -/
def afterComma (first : Bool) (fault : Token → Step) (outline : Outline)
    (f : Outline → Step) : Step :=
  if first then f outline
  else
    outline.next fun token after =>
      match token.kind with
      | .flowEntry => f after
      | _ => fault token

def flowEntry (since : Mark) (first : Bool) (outline : Outline) : Step :=
  outline.next fun token after =>
    match token.kind with
    | .flowSequenceEnd => after.report .sequenceEnd token.start
    | _ =>
      outline.afterComma first
        (failSince .flowSequence since .expectedSequenceEnd ·.start) fun outline =>
        outline.next fun token after =>
          match token.kind with
          | .flowSequenceEnd => after.report .sequenceEnd token.start
          | .key =>
            (after.expect [.pairKey, .flowEntry since false]).report (.mappingStart {}) token.start
          | _ => (outline.expect [.flowEntry since false]).node .flow

/-- Reads the key of a single pair. Where there is none, the token after it is passed over. -/
def pairKey (outline : Outline) : Step :=
  outline.next fun token after =>
    match token.kind with
    | .value | .flowEntry | .flowSequenceEnd =>
      (after.expect [.pairValue]).reportEmpty token.stop
    | _ => (outline.expect [.pairValue]).node .flow

def pairValue (outline : Outline) : Step :=
  outline.next fun token after =>
    match token.kind with
    | .value =>
      after.peek fun following =>
        match following.kind with
        | .flowEntry | .flowSequenceEnd => (after.expect [.pairEnd]).reportEmpty following.start
        | _ => (after.expect [.pairEnd]).node .flow
    | _ => (outline.expect [.pairEnd]).reportEmpty token.start

def pairEnd (outline : Outline) : Step :=
  outline.peek fun token => outline.report .mappingEnd token.start

def flowKey (since : Mark) (first : Bool) (outline : Outline) : Step :=
  outline.next fun token after =>
    match token.kind with
    | .flowMappingEnd => after.report .mappingEnd token.start
    | _ =>
      outline.afterComma first
        (failSince .flowMapping since .expectedMappingEnd ·.start) fun outline =>
        outline.next fun token after =>
          match token.kind with
          | .flowMappingEnd => after.report .mappingEnd token.start
          | .key =>
            let after := after.expect [.flowValue, .flowKey since false]
            after.peek fun following =>
              match following.kind with
              | .value | .flowEntry | .flowMappingEnd => after.reportEmpty following.start
              | _ => after.node .flow
          | _ => (outline.expect [.flowNoValue, .flowKey since false]).node .flow

def flowValue (outline : Outline) : Step :=
  outline.next fun token after =>
    match token.kind with
    | .value =>
      after.peek fun following =>
        match following.kind with
        | .flowEntry | .flowMappingEnd => after.reportEmpty following.start
        | _ => after.node .flow
    | _ => outline.reportEmpty token.start

/-- Meets one expectation. -/
def meet : Expected → Outline → Step
  | .document marked, outline => outline.document marked
  | .documentContent, outline => outline.documentContent
  | .documentEnd, outline => outline.documentEnd
  | .node place, outline => outline.node place
  | .blockEntry since, outline => outline.blockEntry since
  | .looseEntry, outline => outline.looseEntry
  | .blockKey since, outline => outline.blockKey since
  | .blockValue, outline => outline.blockValue
  | .flowEntry since first, outline => outline.flowEntry since first
  | .pairKey, outline => outline.pairKey
  | .pairValue, outline => outline.pairValue
  | .pairEnd, outline => outline.pairEnd
  | .flowKey since first, outline => outline.flowKey since first
  | .flowValue, outline => outline.flowValue
  | .flowNoValue, outline => outline.peek fun token => outline.reportEmpty token.start

end Outline

/-- The events of a text up to its end or to the first fault. -/
structure Events where
  events : List Event
  fault? : Option Fault := none

/-- Meets expectations until none is left. -/
def Events.readFrom (fault? : Option Fault) : Nat → List Event → Outline → Events
  | 0, read, _ => ⟨read.reverse, fault?⟩
  | steps + 1, read, outline =>
    match outline.expected with
    | [] => ⟨read.reverse, none⟩
    | first :: expected =>
      match Outline.meet first { outline with expected } with
      | .error (some fault) => ⟨read.reverse, some fault⟩
      | .error none => ⟨read.reverse, fault?⟩
      | .ok (event, outline) => readFrom fault? steps (event :: read) outline

/-- The events of a text. A token takes part in at most four events. -/
def Events.ofText (text : String) : Events :=
  let read := Tokens.ofText text
  Events.readFrom read.fault? (4 * read.tokens.length + 4) []
    { tokens := read.tokens.drop 1, expected := [.document false] }

end CiTranslate.Yaml

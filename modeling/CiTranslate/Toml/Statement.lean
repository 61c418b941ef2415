import CiTranslate.Toml.Token

/-!
The statements of a TOML text: headers of tables, and keys with their values. Keys and
values are not yet looked into; where one is missing, it is empty.
-/

namespace CiTranslate.Toml

/-- A key or a scalar as it is written. -/
structure Word where
  text : List Char := []
  quoting : Option Quoting := none
  deriving DecidableEq, Repr

/-- A value as it is written. -/
inductive Term where
  | scalar (word : Word)
  | array (items : List Term)
  | inline (entries : List (List Word × Term))
  deriving Repr

inductive Statement where
  | table (path : List Word)
  | arrayTable (path : List Word)
  | assignment (path : List Word) (value : Term)
  deriving Repr

abbrev Reading (α : Type) := Except Fault (α × List Token)

def Token.word (token : Token) : Word :=
  match token.kind with
  | .string quoting => ⟨token.text, some quoting⟩
  | _ => ⟨token.text, none⟩

def Token.isWord (token : Token) : Bool :=
  match token.kind with
  | .string _ => true
  | .atom => true
  | _ => false

/-- Characters that may not stand in comments. -/
def isControl (c : Char) : Bool := (c.toNat < 0x20 && c != '\t') || c.toNat == 0x7f

/-- Checks a line end or a comment. -/
def checkBlank (token : Token) : Except Fault Unit :=
  if token.kind = .newline ∧ token.text = ['\r'] then .error .loneReturn
  else if token.kind = .comment ∧ token.text.any isControl then .error .commentCharacter
  else .ok ()

def skipBlanks (tokens : List Token) : List Token :=
  tokens.dropWhile fun token => token.kind == .blank

/-- Passes over blanks, comments and line ends. -/
def skipLines : List Token → Except Fault (List Token)
  | [] => .ok []
  | token :: tokens =>
    match token.kind with
    | .blank | .newline | .comment => (checkBlank token).bind fun _ => skipLines tokens
    | _ => .ok (token :: tokens)

/-- Passes over the rest of a line, where nothing but a comment may stand. -/
def endLine : List Token → Except Fault (List Token)
  | [] => .ok []
  | token :: tokens =>
    match token.kind with
    | .blank | .comment => (checkBlank token).bind fun _ => endLine tokens
    | .newline => (checkBlank token).map fun _ => tokens
    | _ => .error .unexpectedText

/-- Passes over the rest of a line, whatever stands there. -/
def passLine : List Token → Except Fault (List Token)
  | [] => .ok []
  | token :: tokens =>
    match token.kind with
    | .newline => (checkBlank token).map fun _ => tokens
    | _ => (checkBlank token).bind fun _ => passLine tokens

/-! ### Keys -/

/-- Reads the further parts of a dotted key. -/
def readDotted : Nat → List Word → List Token → List Word × List Token
  | 0, path, tokens => (path.reverse, tokens)
  | steps + 1, path, tokens =>
    match skipBlanks tokens with
    | ⟨.dot, _⟩ :: rest =>
      match skipBlanks rest with
      | token :: after =>
        if token.isWord then readDotted steps (token.word :: path) after
        else readDotted steps ({} :: path) (token :: after)
      | [] => (({} :: path).reverse, [])
    | rest => (path.reverse, rest)

/-- Reads a dotted key. -/
def readKey (tokens : List Token) : List Word × List Token :=
  match tokens with
  | token :: rest =>
    if token.isWord then readDotted tokens.length [token.word] rest
    else readDotted tokens.length [{}] tokens
  | [] => ([{}], [])

/-- Whether the last part of a dotted key is there. -/
def isComplete (path : List Word) : Bool := path.getLast?.any fun word => !word.text.isEmpty

/-! ### Values -/

/-- Reads the words of a scalar without quotes. Blanks may stand between them. -/
def readBare : Nat → List Char → List Token → List Char × List Token
  | 0, text, tokens => (text, tokens)
  | steps + 1, text, tokens =>
    match tokens with
    | ⟨.atom, part⟩ :: rest => readBare steps (text ++ part) rest
    | ⟨.dot, part⟩ :: rest => readBare steps (text ++ part) rest
    | ⟨.blank, blanks⟩ :: ⟨.atom, part⟩ :: rest =>
      if text.isEmpty then (text, tokens) else readBare steps (text ++ blanks ++ part) rest
    | _ => (text, tokens)

/-- Reads the items of an array; the flag tells that a comma has to come first. -/
def readItems (readTerm : List Token → Reading Term) :
    Nat → List Term → Bool → List Token → Reading Term
  | 0, _, _, _ => .error .unclosedArray
  | steps + 1, items, afterItem, tokens =>
    match skipLines tokens with
    | .error fault => .error fault
    | .ok [] => .error .unclosedArray
    | .ok (token :: rest) =>
      match token.kind with
      | .closeBracket => .ok (.array items.reverse, rest)
      | .comma =>
        if afterItem then readItems readTerm steps items false rest else .error .extraArrayComma
      | .equals => .error .equalsInArray
      | _ =>
        if afterItem then .error .missingArrayComma
        else
          match readTerm (token :: rest) with
          | .error fault => .error fault
          | .ok (item, rest) => readItems readTerm steps (item :: items) true rest

/-- What stands for a value that is missing at the end of an inline table. -/
def missingValue : Term := .scalar { quoting := some .literal }

/-- Reads the entries of an inline table. The path is the key whose value is awaited. -/
def readEntries (readTerm : List Token → Reading Term) :
    Nat → List (List Word × Term) → List Word → Awaited → List Token → Reading Term
  | 0, _, _, _, _ => .error .unclosedInline
  | steps + 1, entries, path, awaited, tokens =>
    match skipLines tokens with
    | .error fault => .error fault
    | .ok [] => .error .unclosedInline
    | .ok (token :: rest) =>
      let proceed := readEntries readTerm steps
      match token.kind, awaited with
      | .closeBrace, .key => .ok (.inline entries.reverse, rest)
      | .closeBrace, .comma => .ok (.inline entries.reverse, rest)
      | .closeBrace, _ => .ok (.inline ((path, missingValue) :: entries).reverse, rest)
      | .comma, .comma => proceed entries [] .key rest
      | .comma, _ => .error (.extraInlineComma awaited)
      | .equals, .key => proceed entries [{}] .value rest
      | .equals, .equals => proceed entries path .value rest
      | .equals, _ => .error (.extraAssignment awaited)
      | _, .value =>
        match readTerm (token :: rest) with
        | .error fault => .error fault
        | .ok (value, rest) => proceed ((path, value) :: entries) [] .comma rest
      | .closeBracket, _ => .error (.misplacedClose awaited)
      | _, .equals => .error .missingAssignment
      | .openBracket, _ => .error (.missingInlineKey awaited)
      | .openBrace, _ => .error (.missingInlineKey awaited)
      | _, .comma => .error .missingInlineComma
      | _, .key =>
        let (path, rest) := readKey (token :: rest)
        proceed entries path .equals rest

/-- Reads a value inside of which at most `depth` others stand in each other. A missing
scalar is empty. -/
def readTerm : Nat → List Token → Reading Term
  | _, [] => .ok (.scalar {}, [])
  | depth, token :: rest =>
    match token.kind with
    | .string _ => .ok (.scalar token.word, rest)
    | .atom | .dot =>
      let (text, rest) := readBare (rest.length + 1) [] (token :: rest)
      .ok (.scalar ⟨text, none⟩, rest)
    | .equals => .error .extraEquals
    | .closeBracket => .error .missingArrayOpen
    | .closeBrace => .error .missingInlineOpen
    | .openBracket =>
      match depth with
      | 0 => .error .tooDeep
      | depth + 1 => readItems (readTerm depth) (rest.length + 1) [] false rest
    | .openBrace =>
      match depth with
      | 0 => .error .tooDeep
      | depth + 1 => readEntries (readTerm depth) (rest.length + 1) [] [] .key rest
    | .blank | .newline | .comment | .comma => .ok (.scalar {}, token :: rest)

/-! ### Statements -/

/-- How many arrays and inline tables may stand inside each other. -/
def maxDepth : Nat := 80

/-- Reads the header of a table after its opening bracket. A header whose key breaks off is
kept, with an empty part at the end of its key, and the rest of its line is passed over. -/
def readTable (tokens : List Token) : Reading Statement :=
  let (path, rest) := readKey (skipBlanks tokens)
  match skipBlanks rest with
  | ⟨.closeBracket, _⟩ :: rest => (endLine rest).map (.table path, ·)
  | rest =>
    if isComplete path then .error .unclosedTable else (passLine rest).map (.table path, ·)

/-- Reads the header of an array of tables after its opening brackets. -/
def readArrayTable (tokens : List Token) : Reading Statement :=
  let (path, rest) := readKey (skipBlanks tokens)
  match skipBlanks rest with
  | ⟨.closeBracket, _⟩ :: ⟨.closeBracket, _⟩ :: rest => (endLine rest).map (.arrayTable path, ·)
  | ⟨.closeBracket, _⟩ :: _ => .error (.unclosedArrayTable "]")
  | rest =>
    if isComplete path then .error (.unclosedArrayTable "]]")
    else (passLine rest).map (.arrayTable path, ·)

/-- Reads a key and its value; without a value it is the given fault. -/
def readAssignment (without : Fault) (tokens : List Token) : Reading Statement :=
  let (path, rest) := readKey tokens
  match skipBlanks rest with
  | ⟨.equals, _⟩ :: rest =>
    match readTerm maxDepth (skipBlanks rest) with
    | .error fault => .error fault
    | .ok (value, rest) => (endLine rest).map (.assignment path value, ·)
  | _ => .error without

/-- Reads a statement at its first token. -/
def readStatement (token : Token) (rest : List Token) : Reading Statement :=
  match token.kind with
  | .openBracket =>
    match rest with
    | ⟨.openBracket, _⟩ :: rest => readArrayTable rest
    | rest => readTable rest
  | .closeBracket => .error .missingTableOpen
  | .comma | .openBrace | .closeBrace => .error .invalidPair
  | .dot => readAssignment .noValueForKey (token :: rest)
  | _ => readAssignment .noValue (token :: rest)

def statementsFrom : Nat → List Statement → List Token → Except Fault (List Statement)
  | 0, read, _ => .ok read.reverse
  | steps + 1, read, tokens =>
    match skipLines tokens with
    | .error fault => .error fault
    | .ok [] => .ok read.reverse
    | .ok (token :: rest) =>
      match readStatement token rest with
      | .error fault => .error fault
      | .ok (statement, rest) => statementsFrom steps (statement :: read) rest

/-- The statements of a text. -/
def statements (text : String) : Except Fault (List Statement) :=
  let tokens := tokens text
  statementsFrom (tokens.length + 1) [] tokens

end CiTranslate.Toml

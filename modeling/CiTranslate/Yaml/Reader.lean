import CiTranslate.Yaml.Document

/-!
The value of a YAML text.

Aliases stand for copies of the nodes they name, which are read again wherever an alias
occurs. Plain scalars without a tag stand for nulls, truth values and numbers; core tags
(`!!int` and others) ask for one kind of value, and local tags (`!name`) stay with the value.
-/

namespace CiTranslate.Yaml

/-- The collections that may stand inside each other. -/
def maxDepth : Nat := 128

/-- How far a document is read, and how many aliases were followed. -/
structure Progress where
  index : Nat := 0
  followed : Nat := 0

abbrev Reading (α : Type) := Except Error (α × Progress)

/-- Whether octets are a text in UTF-8. -/
def isText (octets : List Char) : Bool :=
  (String.fromUTF8? ⟨(octets.map fun c => c.toNat.toUInt8).toArray⟩).isSome

/-- The text of a local tag, after its exclamation mark unless that is all of it. -/
def localTag? (tag : Option (List Char)) : Option (List Char) :=
  match tag with
  | some ['!'] => some ['!']
  | some ('!' :: name) => if isText name then some name else none
  | _ => none

def coreTag (name : String) : Option (List Char) := some ("tag:yaml.org,2002:" ++ name).toList

/-- An integer of more than 64 bits is no value. -/
def tooWide (value : Int) : Cause :=
  let width := if 0 ≤ value then "u128" else "i128"
  .mismatch (.type (.wideInteger value width) "any YAML value")

/-- The value of a plain scalar. -/
def plainValue (text : List Char) : Except Cause Value :=
  match Scalar.ofPlain text with
  | .null => .ok .null
  | .bool value => .ok (.bool value)
  | .int value => .ok (.int value)
  | .wide value => .error (tooWide value)
  | .float value => .ok (.float value)
  | .text => .ok (.text (String.ofList text))

/-- The value of a scalar. The tag is left out where it is already taken into account. -/
def scalarValue (tag : Option (List Char)) (text : List Char) (style : Style) :
    Except Cause Value :=
  let plain := style == .plain
  let fail (expected : String) : Except Cause Value :=
    .error (.mismatch (.value (.text (String.ofList text)) expected))
  if tag.isNone then if plain then plainValue text else .ok (.text (String.ofList text))
  else if tag == coreTag "bool" then
    match boolWord? text with
    | some value => .ok (.bool value)
    | none => fail "a boolean"
  else if tag == coreTag "int" then
    match (integer? text).bind sized? with
    | some (.int value) => .ok (.int value)
    | some (.wide value) => .error (tooWide value)
    | _ => fail "an integer"
  else if tag == coreTag "float" then
    match float? text with
    | some value => .ok (.float value)
    | none => fail "a float"
  else if tag == coreTag "null" then
    if isNullWord text then .ok .null else fail "null"
  else if plain && tag.any (·.head? == some '!') then plainValue text
  else .ok (.text (String.ofList text))

/-- Reads the items of a sequence up to its end. -/
def readItems (document : Document) (readItem : Nat → Progress → Reading Value) :
    Nat → List Value → Progress → Reading (List Value)
  | 0, items, progress => .ok (items.reverse, progress)
  | steps + 1, items, progress =>
    match document.nodes[progress.index]? with
    | none => .error document.ending
    | some (.sequenceEnd, _) =>
      .ok (items.reverse, { progress with index := progress.index + 1 })
    | some _ =>
      match readItem items.length progress with
      | .error error => .error error
      | .ok (item, progress) => readItems document readItem steps (item :: items) progress

/-- The way to the value of the key that a node starts. -/
def Path.valueOf (path : Path) : NodeKind → Path
  | .scalar _ text _ => .field path (String.ofList text)
  | _ => .unnamed path

/-- Reads the entries of a mapping up to its end. A key may occur once. -/
def readEntries (document : Document) (readKey : Progress → Reading Value)
    (readValue : Path → Progress → Reading Value) (path : Path) (mark : Mark) :
    Nat → List (Value × Value) → Progress → Reading (List (Value × Value))
  | 0, entries, progress => .ok (entries.reverse, progress)
  | steps + 1, entries, progress =>
    match document.nodes[progress.index]? with
    | none => .error document.ending
    | some (.mappingEnd, _) =>
      .ok (entries.reverse, { progress with index := progress.index + 1 })
    | some (kind, _) =>
      match readKey progress with
      | .error error => .error error
      | .ok (key, progress) =>
        match entries.find? fun entry => entry.1.same key with
        | some (known, _) => .error (.value (.duplicateKey known) path mark)
        | none =>
          match readValue (path.valueOf kind) progress with
          | .error error => .error error
          | .ok (value, progress) =>
            readEntries document readKey readValue path mark steps ((key, value) :: entries)
              progress

/-- Follows an alias, unless that was done too often; other nodes are read where they stand. -/
def follow (document : Document) (readNode : Progress → Reading Value) (progress : Progress) :
    Reading Value :=
  match document.nodes[progress.index]? with
  | some (.alias number, _) =>
    let followed := progress.followed + 1
    if 100 * document.nodes.size < followed then .error .tooManyAliases
    else
      match document.indices.lookup number with
      | none => .error document.ending
      | some index =>
        (readNode { index, followed }).map fun (value, after) =>
          (value, { after with index := progress.index + 1 })
  | _ => readNode progress

/-- Gives a local tag to a value. -/
def addTag (tag : Option (List Char)) (value : Value) : Value :=
  match tag with
  | some tag => .tagged tag value
  | none => value

/-- Reads a node that is no alias, inside of which at most `depth` collections may stand
in each other. -/
def readNode (document : Document) : Nat → Path → Progress → Reading Value
  | depth, path, progress =>
    match document.nodes[progress.index]? with
    | none => .error document.ending
    | some (kind, mark) =>
      let after := { progress with index := progress.index + 1 }
      match kind with
      | .scalar tag text style =>
        let known := localTag? tag
        match scalarValue (if known.isSome then none else tag) text style with
        | .ok value => .ok (addTag known value, after)
        | .error cause => .error (.value cause path mark)
      | .sequenceStart tag =>
        match depth with
        | 0 => .error (.tooDeep mark)
        | depth + 1 =>
          (readItems document
            (fun index => follow document (readNode document depth (.item path index)))
            document.nodes.size [] after).map fun (items, progress) =>
              (addTag (localTag? tag) (.sequence items), progress)
      | .mappingStart tag =>
        match depth with
        | 0 => .error (.tooDeep mark)
        | depth + 1 =>
          (readEntries document (follow document (readNode document depth path))
            (fun path => follow document (readNode document depth path)) path mark
            document.nodes.size [] after).map fun (entries, progress) =>
              (addTag (localTag? tag) (.mapping entries), progress)
      | _ => .ok (.null, after)

/-- Reads a text that holds at most one document. -/
def read (text : String) : Except Error Value :=
  let document := Document.ofText text
  match follow document (readNode document maxDepth .root) {} with
  | .error error => .error error
  | .ok (value, _) =>
    match document.failure? with
    | some error => .error error
    | none => if document.followed then .error .severalDocuments else .ok value

end CiTranslate.Yaml

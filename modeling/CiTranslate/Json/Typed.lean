import CiTranslate.Json.Skip

/-!
Reading JSON texts against a shape.

The text is read once from left to right, so the first fault or mismatch in the text is
the one that is reported. A mismatch of a record as a whole (an unknown, repeated or
missing field) is placed behind the closing bracket if only that follows.
-/

namespace CiTranslate.Json

/-- Why a typed reader stops: at a fault with a place, or at a mismatch that has no place
yet, before the text that is left. -/
inductive Stop where
  | fault (met : Fault)
  | mismatch (cause : Mismatch) (rest : List Char)

abbrev Typed (α : Type) := Except Stop (α × List Char)

/-- A mismatch that is reported before the text that is left. -/
def misfit (cause : Mismatch) (rest : List Char) : Except Stop α :=
  .error (.fault (faultAt (.mismatch cause) rest))

def unplaced (cause : Mismatch) (rest : List Char) : Except Stop α :=
  .error (.mismatch cause rest)

def stopAt (result : Except Fault α) : Except Stop α := result.mapError .fault

def typeMismatch (found : Found) (expected : String) (rest : List Char) : Except Stop α :=
  misfit (.type found expected) rest

/-- Names a value of the wrong kind. Scalars are read first; brackets are left unread. -/
def readMismatch (expected : String) (text : List Char) : Except Stop α :=
  match text with
  | '[' :: _ => typeMismatch .sequence expected text
  | '\x7b' :: _ => typeMismatch .map expected text
  | text =>
    match readScalar text with
    | .error fault => .error (.fault fault)
    | .ok (.null, rest) => typeMismatch .null expected rest
    | .ok (.bool value, rest) => typeMismatch (.boolean value) expected rest
    | .ok (.int value, rest) => typeMismatch (.integer value) expected rest
    | .ok (.float value, rest) => typeMismatch (.float (doubles.write value)) expected rest
    | .ok (.text value, rest) => typeMismatch (.text value) expected rest
    | .ok (.list _, rest) => typeMismatch .sequence expected rest
    | .ok (.record _, rest) => typeMismatch .map expected rest

def readTextAs (expected : String) (text : List Char) : Typed String :=
  match skipSpaces text with
  | [] => .error (.fault (faultOn .endOfValue []))
  | '"' :: rest => stopAt (readText rest)
  | text => readMismatch expected text

/-- Reads one of the names after its opening quote. -/
def readName (names : List String) (text : List Char) : Typed String :=
  match readText text with
  | .error fault => .error (.fault fault)
  | .ok (name, rest) =>
    if names.contains name then .ok (name, rest) else misfit (.unknownChoice name names) rest

/-- Reads the null that belongs to a name written as a field. -/
def readUnit (text : List Char) : Except Stop (List Char) :=
  match skipSpaces text with
  | [] => .error (.fault (faultOn .endOfValue []))
  | 'n' :: rest => stopAt (readWord ['u', 'l', 'l'] rest)
  | text => readMismatch "unit" text

/-- Reads the rest of a name written as a field, `{"name": null}`. -/
def readNameField (names : List String) (text : List Char) : Typed String :=
  match skipSpaces text with
  | [] => .error (.fault (faultOn .endOfObject []))
  | '"' :: rest =>
    match readName names rest with
    | .error stop => .error stop
    | .ok (name, rest) =>
      match (stopAt (readColon rest)).bind readUnit with
      | .error stop => .error stop
      | .ok rest =>
        match skipSpaces rest with
        | '\x7d' :: rest => .ok (name, rest)
        | [] => .error (.fault (faultAt .endOfObject []))
        | rest => .error (.fault (faultAt .expectedValue rest))
  | text => .error (.fault (faultOn .keyNotString text))

/-- The text after the end of a list, and the fault if the end does not follow. -/
def closeList (text : List Char) : List Char × Option Fault :=
  match skipSpaces text with
  | [] => ([], some (faultOn .endOfList []))
  | ']' :: rest => (rest, none)
  | ',' :: rest =>
    let rest := skipSpaces rest
    match rest with
    | ']' :: _ => (rest, some (faultOn .trailingComma rest))
    | _ => (rest, some (faultOn .trailingCharacters rest))
  | rest => (rest, some (faultOn .trailingCharacters rest))

/-- The text after the end of a record, and the fault if the end does not follow. -/
def closeRecord (text : List Char) : List Char × Option Fault :=
  match skipSpaces text with
  | [] => ([], some (faultOn .endOfObject []))
  | '\x7d' :: rest => (rest, none)
  | ',' :: rest => (',' :: rest, some (faultOn .trailingComma (',' :: rest)))
  | rest => (rest, some (faultOn .trailingCharacters rest))

/-- Ends a list or record: a mismatch that has no place yet gets the one behind the end. -/
def closed (close : List Char → List Char × Option Fault) (result : Typed α) : Typed α :=
  match result with
  | .error (.mismatch cause rest) => misfit cause (close rest).1
  | .error stop => .error stop
  | .ok (value, rest) =>
    match close rest with
    | (rest, none) => .ok (value, rest)
    | (_, some fault) => .error (.fault fault)

/-- The end of a list that was looked at is left for the one who opened it. -/
def nextItemOf (first : Bool) (text : List Char) : Except Stop (Option (List Char) × List Char) :=
  match nextItem first text with
  | .error fault => .error (.fault fault)
  | .ok (.close _) => .ok (none, skipSpaces text)
  | .ok (.item text) => .ok (some text, text)

mutual

/-- Reads a value of a shape. -/
def readShapeFrom : Nat → Nat → Shape → List Char → Typed Data
  | 0, _, _, text => .error (.fault (faultOn .endOfValue text))
  | steps + 1, depth, shape, text =>
    match shape with
    | .text => (readTextAs "a string" text).map fun (value, rest) => (.text value, rest)
    | .optional inner =>
      match skipSpaces text with
      | 'n' :: rest => (stopAt (readWord ['u', 'l', 'l'] rest)).map fun rest => (.null, rest)
      | text => readShapeFrom steps depth inner text
    | .choice names =>
      match skipSpaces text with
      | [] => .error (.fault (faultOn .endOfValue []))
      | '\x7b' :: rest =>
        match depth with
        | 0 => .error (.fault (faultOn .tooDeep ('\x7b' :: rest)))
        | _ + 1 => (readNameField names rest).map fun (name, rest) => (.text name, rest)
      | '"' :: rest => (readName names rest).map fun (name, rest) => (.text name, rest)
      | text => .error (.fault (faultOn .expectedValue text))
    | .texts =>
      match skipSpaces text with
      | [] => .error (.fault (faultOn .endOfValue []))
      | '\x7b' :: rest =>
        match depth with
        | 0 => .error (.fault (faultOn .tooDeep ('\x7b' :: rest)))
        | _ + 1 => readTextsFrom steps [] rest
      | text => readMismatch "a map" text
    | .list item =>
      match skipSpaces text with
      | [] => .error (.fault (faultOn .endOfValue []))
      | '[' :: rest =>
        match depth with
        | 0 => .error (.fault (faultOn .tooDeep ('[' :: rest)))
        | depth + 1 => closed closeList (readItemsOfFrom steps depth item [] rest)
      | text => readMismatch "a sequence" text
    | .record name isClosed fields =>
      match skipSpaces text with
      | [] => .error (.fault (faultOn .endOfValue []))
      | '[' :: rest =>
        match depth with
        | 0 => .error (.fault (faultOn .tooDeep ('[' :: rest)))
        | depth + 1 => closed closeList (readPlacesFrom steps depth name fields.length 0 fields rest)
      | '\x7b' :: rest =>
        match depth with
        | 0 => .error (.fault (faultOn .tooDeep ('\x7b' :: rest)))
        | depth + 1 =>
          closed closeRecord (readNamedFrom steps depth isClosed fields [] true rest)
      | text => readMismatch ("struct " ++ name) text

/-- Reads the fields of a record of texts. -/
def readTextsFrom : Nat → List (String × Data) → List Char → Typed Data
  | 0, _, text => .error (.fault (faultOn .endOfObject text))
  | steps + 1, read, text =>
    match nextKey read.isEmpty text with
    | .error fault => .error (.fault fault)
    | .ok (.close rest) => .ok (.record read, rest)
    | .ok (.item text) =>
      match readText text with
      | .error fault => .error (.fault fault)
      | .ok (key, rest) =>
        match (stopAt (readColon rest)).bind (readTextAs "a string") with
        | .error stop => .error stop
        | .ok (value, rest) => readTextsFrom steps (Fields.put key (.text value) read) rest

/-- Reads the items of a list, all of one shape. -/
def readItemsOfFrom : Nat → Nat → Shape → List Data → List Char → Typed Data
  | 0, _, _, _, text => .error (.fault (faultOn .endOfList text))
  | steps + 1, depth, item, read, text =>
    match nextItemOf read.isEmpty text with
    | .error stop => .error stop
    | .ok (none, rest) => .ok (.list read.reverse, rest)
    | .ok (some text, _) =>
      match readShapeFrom steps depth item text with
      | .error stop => .error stop
      | .ok (value, rest) => readItemsOfFrom steps depth item (value :: read) rest

/-- Reads the fields of a record that is written as the list of their values. -/
def readPlacesFrom : Nat → Nat → String → Nat → Nat → List (String × Shape × Option Data) →
    List Char → Typed Data
  | 0, _, _, _, _, _, text => .error (.fault (faultOn .endOfList text))
  | _ + 1, _, _, _, _, [], text => .ok (.record [], text)
  | steps + 1, depth, name, total, index, (key, shape, default) :: fields, text =>
    match nextItemOf (index == 0) text with
    | .error stop => .error stop
    | .ok (none, rest) =>
      match Shape.fillRest name total index ((key, shape, default) :: fields) with
      | .error cause => unplaced cause rest
      | .ok filled => .ok (.record filled, rest)
    | .ok (some text, _) =>
      match readShapeFrom steps depth shape text with
      | .error stop => .error stop
      | .ok (value, rest) =>
        match readPlacesFrom steps depth name total (index + 1) fields rest with
        | .error stop => .error stop
        | .ok (.record more, rest) => .ok (.record ((key, value) :: more), rest)
        | .ok (other, rest) => .ok (other, rest)

/-- Reads the fields of a record after those already found. -/
def readNamedFrom : Nat → Nat → Bool → List (String × Shape × Option Data) →
    List (String × Data) → Bool → List Char → Typed Data
  | 0, _, _, _, _, _, text => .error (.fault (faultOn .endOfObject text))
  | steps + 1, depth, isClosed, fields, found, first, text =>
    match nextKey first text with
    | .error fault => .error (.fault fault)
    | .ok (.close _) =>
      match Shape.fill found fields with
      | .error cause => unplaced cause (skipSpaces text)
      | .ok filled => .ok (.record filled, skipSpaces text)
    | .ok (.item text) =>
      match readText text with
      | .error fault => .error (.fault fault)
      | .ok (key, rest) =>
        match fields.find? (·.1 == key) with
        | some (_, shape, _) =>
          if (Fields.get? key found).isSome then unplaced (.duplicateField key) rest
          else
            match stopAt (readColon rest) with
            | .error stop => .error stop
            | .ok rest =>
              match readShapeFrom steps depth shape rest with
              | .error stop => .error stop
              | .ok (value, rest) =>
                readNamedFrom steps depth isClosed fields (found ++ [(key, value)]) false rest
        | none =>
          if isClosed then unplaced (.unknownField key (fields.map (·.1))) rest
          else
            match stopAt ((readColon rest).bind skipValue) with
            | .error stop => .error stop
            | .ok rest => readNamedFrom steps depth isClosed fields found false rest

end

/-- A mismatch that found no enclosing bracket is placed where it was met. -/
def Stop.asFault : Stop → Fault
  | .fault met => met
  | .mismatch cause rest => faultAt (.mismatch cause) rest

/-- Reads a JSON text of a shape, in full form. -/
def readAs (shape : Shape) (text : String) : Except Error Data :=
  let chars := text.toList
  match readShapeFrom (3 * chars.length + 64) maxDepth shape chars with
  | .error stop => .error (stop.asFault.error chars)
  | .ok (data, rest) => (readEnd data rest).mapError (·.error chars)

end CiTranslate.Json

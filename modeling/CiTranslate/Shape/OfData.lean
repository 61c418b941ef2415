import CiTranslate.Json.Number

/-!
Structured data against a shape: the full form of data that fits, or the first mismatch in
the order of the data's own fields. There are no positions here.
-/

namespace CiTranslate

def Data.found : Data → Found
  | .null => .null
  | .bool value => .boolean value
  | .int value => .integer value
  | .float value => .float (Json.doubles.write value)
  | .text value => .text value
  | .list _ => .sequence
  | .record _ => .map

namespace Shape

def typeMismatch (data : Data) (expected : String) : Except Mismatch α :=
  .error (.type data.found expected)

/-- One of the names, as a text or as the only field of a record, whose value is null. -/
def nameOf (names : List String) : Data → Except Mismatch String
  | .text name => if names.contains name then .ok name else .error (.unknownChoice name names)
  | .record [(name, value)] =>
    if !names.contains name then .error (.unknownChoice name names)
    else if value.isNull then .ok name
    else typeMismatch value "unit"
  | .record _ => .error (.value .map "map with a single key")
  | data => typeMismatch data "string or map"

def textOf (data : Data) : Except Mismatch String :=
  match data with
  | .text value => .ok value
  | data => typeMismatch data "a string"

mutual

/-- How many shapes stand inside each other, at most. -/
def height : Shape → Nat
  | .text => 1
  | .optional inner => inner.height + 1
  | .choice _ => 1
  | .texts => 1
  | .list item => item.height + 1
  | .record _ _ fields => heightOfFields fields + 1

def heightOfFields : List (String × Shape × Option Data) → Nat
  | [] => 0
  | (_, shape, _) :: fields => max shape.height (heightOfFields fields)

end

/-- The fields of a record of texts. -/
def textsOf : List (String × Data) → Except Mismatch (List (String × Data))
  | [] => .ok []
  | (key, value) :: fields =>
    match textOf value with
    | .error cause => .error cause
    | .ok value => (textsOf fields).map ((key, .text value) :: ·)

/-- Values in the order of the fields; the fields left out at the end are defaults. -/
def placesOf (readField : Shape → Data → Except Mismatch Data) (name : String) (total : Nat) :
    Nat → List (String × Shape × Option Data) → List Data →
      Except Mismatch (List (String × Data))
  | index, fields, [] => fillRest name total index fields
  | _, [], _ :: _ => .ok []
  | index, (key, shape, _) :: fields, data :: items =>
    match readField shape data with
    | .error cause => .error cause
    | .ok data => (placesOf readField name total (index + 1) fields items).map ((key, data) :: ·)

/-- The known fields among those given. -/
def namedOf (readField : Shape → Data → Except Mismatch Data) (isClosed : Bool)
    (fields : List (String × Shape × Option Data)) :
    List (String × Data) → Except Mismatch (List (String × Data))
  | [] => .ok []
  | (key, data) :: given =>
    match fields.find? (·.1 == key) with
    | some (_, shape, _) =>
      match readField shape data with
      | .error cause => .error cause
      | .ok data => (namedOf readField isClosed fields given).map ((key, data) :: ·)
    | none =>
      if isClosed then .error (.unknownField key (fields.map (·.1)))
      else namedOf readField isClosed fields given

/-- A record, given by its fields or by the list of their values. -/
def recordOf (readField : Shape → Data → Except Mismatch Data) (name : String) (isClosed : Bool)
    (fields : List (String × Shape × Option Data)) (data : Data) : Except Mismatch Data :=
  match data with
  | .list items =>
    match placesOf readField name fields.length 0 fields items with
    | .error cause => .error cause
    | .ok filled =>
      if fields.length < items.length then
        .error (.length items.length "fewer elements in array")
      else .ok (.record filled)
  | .record given =>
    match namedOf readField isClosed fields given with
    | .error cause => .error cause
    | .ok found => (fill found fields).map .record
  | data => typeMismatch data ("struct " ++ name)

/-- The full form of data of a shape that is at most `height` high. -/
def ofDataFrom : Nat → Shape → Data → Except Mismatch Data
  | 0, _, data => .ok data
  | height + 1, shape, data =>
    match shape with
    | .text => (textOf data).map .text
    | .optional inner => if data.isNull then .ok .null else ofDataFrom height inner data
    | .choice names => (nameOf names data).map .text
    | .texts =>
      match data with
      | .record fields => (textsOf fields).map .record
      | data => typeMismatch data "a map"
    | .list item =>
      match data with
      | .list items => (items.mapM (ofDataFrom height item)).map .list
      | data => typeMismatch data "a sequence"
    | .record name isClosed fields => recordOf (ofDataFrom height) name isClosed fields data

/-- The full form of data of a shape. -/
def ofData (shape : Shape) (data : Data) : Except Mismatch Data :=
  ofDataFrom shape.height shape data

end Shape

end CiTranslate

import CiTranslate.Shape.OfData
import CiTranslate.Toml.Table

/-!
Reading TOML texts against a shape.

The fields of a table are visited in the order of their names, so the first mismatch in
that order is the one that is reported. There are no null values: an optional field is
absent or has its value.
-/

namespace CiTranslate.Toml

/-- Why a text is no TOML text of a shape. -/
inductive Error where
  | fault (met : Fault)
  | mismatch (cause : Mismatch)
  /-- Neither a name nor a table where one of several names is expected. -/
  | noName
  | noNames
  | severalNames
  /-- A name written as a key has to have an empty table. -/
  | nameValue (type : String)
  | fullNameTable
  | fullNameArray
  | integerOverflow
  | floatOverflow

def Error.message : Error → String
  | .fault met => met.message
  | .mismatch cause => cause.message
  | .noName => "wanted string or table"
  | .noNames => "wanted exactly 1 element, found 0 elements"
  | .severalNames => "wanted exactly 1 element, more than 1 element"
  | .nameValue type => s!"expected table, found {type}"
  | .fullNameTable => "expected empty table"
  | .fullNameArray => "expected empty array"
  | .integerOverflow => "integer number overflowed"
  | .floatOverflow => "floating-point number overflowed"

/-- Doubles are written without a power of ten. -/
def doubles : Decimal.Layout :=
  { plainFrom := -400, plainTo := 400, plusSign := false, infinity := "inf", notANumber := "NaN" }

/-- An integer by its size. -/
def foundInteger (n : Int) : Except Error Found :=
  if -Int.pow 2 63 ≤ n ∧ n < Int.pow 2 64 then .ok (.integer n)
  else if -Int.pow 2 127 ≤ n ∧ n < Int.pow 2 127 then .ok (.wideInteger n "i128")
  else if 0 ≤ n ∧ n < Int.pow 2 128 then .ok (.wideInteger n "u128")
  else .error .integerOverflow

def Scalar.found : Scalar → Except Error Found
  | .text value => .ok (.text value)
  | .boolean value => .ok (.boolean value)
  | .integer (some n) => foundInteger n
  | .integer none => .error .integerOverflow
  | .float (some x) => .ok (.float (doubles.write x))
  | .float none => .error .floatOverflow
  | .dateTime => .ok .map

def Value.found : Value → Except Error Found
  | .scalar value => value.found
  | .array _ => .ok .sequence
  | .tables _ => .ok .sequence
  | .table _ _ => .ok .map

def typeMismatch (value : Value) (expected : String) : Except Error α :=
  match value.found with
  | .error error => .error error
  | .ok found => .error (.mismatch (.type found expected))

/-- The field that stands for a date or time where a table is expected. -/
def dateTimeField : String := "$__toml_private_datetime"

/-- The fields of a table in the order of their names. -/
def sorted (table : Table) : Table := table.mergeSort fun a b => a.1 ≤ b.1

/-- The items of an array. -/
def Value.items? : Value → Option (List Value)
  | .array items => some items
  | .tables items => some (items.map (.table .header))
  | _ => none

/-- The fields of a table. -/
def Value.fields? : Value → Option Table
  | .table _ fields => some (sorted fields)
  | .scalar .dateTime => some [(dateTimeField, .scalar (.text ""))]
  | _ => none

def readText (value : Value) : Except Error String :=
  match value with
  | .scalar (.text text) => .ok text
  | value => typeMismatch value "a string"

/-- Checks the value of a name written as a key. -/
def checkEmpty : Value → Except Error Unit
  | .table _ [] => .ok ()
  | .table _ _ => .error .fullNameTable
  | .array [] => .ok ()
  | .array _ => .error .fullNameArray
  | .tables _ => .error .fullNameArray
  | value => .error (.nameValue value.typeName)

/-- One of the names, as a text or as the only key of a table. -/
def readName (names : List String) (value : Value) : Except Error String :=
  let known (name : String) : Except Error Unit :=
    if names.contains name then .ok () else .error (.mismatch (.unknownChoice name names))
  match value with
  | .scalar (.text name) => (known name).map fun _ => name
  | .table _ [] => .error .noNames
  | .table _ [(name, value)] =>
    ((known name).bind fun _ => checkEmpty value).map fun _ => name
  | .table _ _ => .error .severalNames
  | _ => .error .noName

/-- Values in the order of the fields. Fields left out at the end are defaults, and values
beyond the last field are passed over. -/
def readPlaces (readField : Shape → Value → Except Error Data) (name : String) (total : Nat) :
    Nat → List (String × Shape × Option Data) → List Value →
      Except Error (List (String × Data))
  | index, fields, [] => (Shape.fillRest name total index fields).mapError .mismatch
  | _, [], _ :: _ => .ok []
  | index, (key, shape, _) :: fields, value :: values =>
    match readField shape value with
    | .error error => .error error
    | .ok data =>
      (readPlaces readField name total (index + 1) fields values).map ((key, data) :: ·)

/-- The known fields among those given. -/
def readNamed (readField : Shape → Value → Except Error Data) (isClosed : Bool)
    (fields : List (String × Shape × Option Data)) :
    Table → Except Error (List (String × Data))
  | [] => .ok []
  | (key, value) :: given =>
    match fields.find? (·.1 == key) with
    | some (_, shape, _) =>
      match readField shape value with
      | .error error => .error error
      | .ok data => (readNamed readField isClosed fields given).map ((key, data) :: ·)
    | none =>
      if isClosed then .error (.mismatch (.unknownField key (fields.map (·.1))))
      else readNamed readField isClosed fields given

/-- A record, given by its fields or by the list of their values. -/
def readRecord (readField : Shape → Value → Except Error Data) (name : String) (isClosed : Bool)
    (fields : List (String × Shape × Option Data)) (value : Value) : Except Error Data :=
  match value.items?, value.fields? with
  | some items, _ => (readPlaces readField name fields.length 0 fields items).map .record
  | none, some given =>
    match readNamed readField isClosed fields given with
    | .error error => .error error
    | .ok found => ((Shape.fill found fields).mapError .mismatch).map .record
  | none, none => typeMismatch value ("struct " ++ name)

def readTextField (field : String × Value) : Except Error (String × Data) :=
  (readText field.2).map fun text => (field.1, .text text)

/-- The full form of a value of a shape that is at most `height` high. -/
def readShapeFrom : Nat → Shape → Value → Except Error Data
  | 0, _, _ => .ok .null
  | height + 1, shape, value =>
    match shape with
    | .text => (readText value).map .text
    | .optional inner => readShapeFrom height inner value
    | .choice names => (readName names value).map .text
    | .texts =>
      match value.fields? with
      | some fields => (fields.mapM readTextField).map .record
      | none => typeMismatch value "a map"
    | .list item =>
      match value.items? with
      | some items => (items.mapM (readShapeFrom height item)).map .list
      | none => typeMismatch value "a sequence"
    | .record name isClosed fields => readRecord (readShapeFrom height) name isClosed fields value

/-- Reads a TOML text of a shape, in full form. -/
def readAs (shape : Shape) (text : String) : Except Error Data :=
  match read text with
  | .error fault => .error (.fault fault)
  | .ok table => readShapeFrom shape.height shape (.table .header table)

end CiTranslate.Toml

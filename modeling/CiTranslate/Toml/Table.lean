import CiTranslate.Fields
import CiTranslate.Toml.Scalar

/-!
The tables of a TOML text, built statement by statement.

A table is defined once: by its own header, by dotted keys, or inline. Only a table that
was merely named on the way to another header may still get a header of its own.
-/

namespace CiTranslate.Toml

/-- How a table came to be. -/
inductive Origin where
  /-- By its own header. -/
  | header
  /-- On the way to the header of another table. -/
  | implicit
  | dotted
  | inline
  deriving DecidableEq, Repr

inductive Value where
  | scalar (scalar : Scalar)
  | array (items : List Value)
  /-- An array of tables, each with its own header. -/
  | tables (items : List (List (String × Value)))
  | table (origin : Origin) (fields : List (String × Value))
  deriving Repr

namespace Value

def typeName : Value → String
  | .scalar (.text _) => "string"
  | .scalar (.boolean _) => "boolean"
  | .scalar (.integer _) => "integer"
  | .scalar (.float _) => "float"
  | .scalar .dateTime => "datetime"
  | .array _ => "array"
  | .tables _ => "array"
  | .table _ _ => "table"

end Value

abbrev Table := Fields Value

/-- Where a path of keys stands: in a header, before a value, or in an inline table. -/
inductive Place where
  | header
  | assignment
  | inline
  deriving DecidableEq, Repr

/-- How the tables that a path passes through come to be. -/
def Place.origin : Place → Origin
  | .header => .implicit
  | .assignment => .dotted
  | .inline => .dotted

/-- Whether a path may pass through a table that is already there. -/
def Place.enter (place : Place) (origin : Origin) : Except Fault Unit :=
  match place, origin with
  | _, .implicit => .ok ()
  | _, .dotted => .ok ()
  | .header, .header => .ok ()
  | .inline, .inline => .error .duplicateKey
  | _, .inline => .error (.notExtensible "inline table")
  | _, .header => .error .duplicateKey

/-- Changes the table at a path, given how it came to be, and returns what the change gives.
Missing tables are made. A path through an array of tables leads to the last of them. -/
def changeAt (place : Place) (change : Origin → Table → Except Fault (α × Table)) :
    List String → Origin → Table → Except Fault (α × Table)
  | [], origin, table => change origin table
  | key :: path, _, table =>
    match Fields.get? key table with
    | none =>
      (changeAt place change path place.origin []).map fun (found, inner) =>
        (found, Fields.put key (.table place.origin inner) table)
    | some (.table origin inner) =>
      match place.enter origin with
      | .error fault => .error fault
      | .ok () =>
        (changeAt place change path origin inner).map fun (found, inner) =>
          (found, Fields.put key (.table origin inner) table)
    | some (.tables items) =>
      (changeAt place change path .header (items.getLastD [])).map fun (found, inner) =>
        (found, Fields.put key (.tables (items.dropLast ++ [inner])) table)
    | some value => .error (.notExtensible value.typeName)

/-- Takes out what a table holds before its header. -/
def takeOut (key : String) (table : Table) : Except Fault (Table × Table) :=
  match Fields.get? key table with
  | none => .ok ([], table)
  | some (.table .implicit inner) => .ok (inner, Fields.erase key table)
  | some _ => .error .duplicateKey

/-- Adds the next table of an array. -/
def append (key : String) (item : Table) (table : Table) : Except Fault Table :=
  match Fields.get? key table with
  | none => .ok (Fields.put key (.tables [item]) table)
  | some (.tables items) => .ok (Fields.put key (.tables (items ++ [item])) table)
  | some _ => .error .duplicateKey

/-- Gives a key its value. Below a dotted key there has to be a table made by dotted keys. -/
def assign (isDotted : Bool) (key : String) (value : Value) (origin : Origin) (table : Table) :
    Except Fault Table :=
  if isDotted ∧ origin ≠ .dotted then .error .duplicateKey
  else if (Fields.get? key table).isSome then .error .duplicateKey
  else .ok (Fields.put key value table)

/-- How many parts a key may have. -/
def maxParts : Nat := 80

/-- The tables that a dotted key passes through, and its last part. -/
def splitPath (path : List Word) : Except Fault (List String × String) :=
  match path.mapM Word.decodeKey with
  | .error fault => .error fault
  | .ok keys =>
    if maxParts < keys.length then .error .tooLong
    else
      match keys.getLast? with
      | some key => .ok (keys.dropLast, key)
      | none => .error .emptyKey

/-- Gives a dotted key its value, in a table that came to be in the given way. -/
def assignAt (place : Place) (path : List String × String) (value : Value) (origin : Origin)
    (table : Table) : Except Fault Table :=
  let change (origin : Origin) (table : Table) : Except Fault (Unit × Table) :=
    (assign (!path.1.isEmpty) path.2 value origin table).map ((), ·)
  (changeAt place change path.1 origin table).map Prod.snd

mutual

/-- The value of a term. -/
def Term.value : Term → Except Fault Value
  | .scalar word => word.decode.map .scalar
  | .array items => (valuesOf items).map .array
  | .inline entries => (tableOf [] entries).map (.table .inline ·)

def valuesOf : List Term → Except Fault (List Value)
  | [] => .ok []
  | term :: rest =>
    match term.value with
    | .error fault => .error fault
    | .ok value => (valuesOf rest).map (value :: ·)

/-- The table of the entries read so far and of those that are left. -/
def tableOf (table : Table) : List (List Word × Term) → Except Fault Table
  | [] => .ok table
  | entry :: rest =>
    match entryOf entry with
    | .error fault => .error fault
    | .ok (path, value) =>
      match assignAt .inline path value .inline table with
      | .error fault => .error fault
      | .ok table => tableOf table rest

def entryOf : List Word × Term → Except Fault ((List String × String) × Value)
  | (path, term) =>
    match splitPath path with
    | .error fault => .error fault
    | .ok path => term.value.map (path, ·)

end

/-- The header of a table, or of an item of an array of tables. -/
structure Header where
  isArray : Bool
  path : List String
  key : String
  deriving Repr

/-- The tables of a part of a text. The table whose header came last stands apart until it
is complete; without a header it is the root itself. -/
structure Draft where
  root : Table := []
  current : Table := []
  header : Option Header := none
  deriving Repr

namespace Draft

/-- The root table, with the table whose header came last put in its place. Only now is it
known whether an item of an array has a place. -/
def finish (draft : Draft) : Except Fault Table :=
  match draft.header with
  | none => .ok draft.current
  | some header =>
    let change (_ : Origin) (table : Table) : Except Fault (Unit × Table) :=
      if header.isArray then (append header.key draft.current table).map ((), ·)
      else .ok ((), Fields.put header.key (.table .header draft.current) table)
    (changeAt .header change header.path .header draft.root).map Prod.snd

/-- Starts the table of a header. -/
def start (isArray : Bool) (path : List Word) (draft : Draft) : Except Fault Draft :=
  match draft.finish with
  | .error fault => .error fault
  | .ok root =>
    match splitPath path with
    | .error fault => .error fault
    | .ok (path, key) =>
      let header : Header := { isArray, path, key }
      if isArray then .ok { root, header := some header }
      else
        (changeAt .header (fun _ => takeOut key) path .header root).map fun (current, root) =>
          { root, current, header := some header }

def add (draft : Draft) : Statement → Except Fault Draft
  | .table path => draft.start false path
  | .arrayTable path => draft.start true path
  | .assignment path term =>
    match entryOf (path, term) with
    | .error fault => .error fault
    | .ok (path, value) =>
      (assignAt .assignment path value .header draft.current).map fun current =>
        { draft with current }

end Draft

/-- The root table of a text. Its form is checked as a whole first. -/
def read (text : String) : Except Fault Table :=
  match statements text with
  | .error fault => .error fault
  | .ok statements => (statements.foldlM Draft.add {}).bind Draft.finish

end CiTranslate.Toml

import CiTranslate.Json.Reader
import CiTranslate.Node
import CiTranslate.Pipeline

/-!
Parameters of steps in documents. A nested value is kept as its compact JSON text; when a
text has exactly that form, the value is written again.
-/

namespace CiTranslate

/-- Whether a text starts like a list or a record. -/
def startsNested (text : String) : Bool :=
  match text.toList with
  | '[' :: _ => true
  | '\x7b' :: _ => true
  | _ => false

/-- The value that a parameter is written as. -/
def inputValue (raw : String) : Data :=
  if startsNested raw then
    match Json.read raw with
    | .ok data => if Json.write data = raw then data else .text raw
    | .error _ => .text raw
  else .text raw

/-- The parameters as a record. -/
def Inputs.toData (inputs : Inputs) : Data := .record (Fields.mapValues inputValue inputs.fields)

/-- The parameters as a record, if there are any. -/
def Inputs.toData? (inputs : Inputs) : Option Data :=
  if inputs.isEmpty then none else some inputs.toData

/-- The parameters that a mapping holds. -/
def Inputs.ofNode (node : Node) : Inputs := .ofList node.inputTexts

/-- The parameters that the mapping under a key holds. -/
def Inputs.ofNodeAt (key : String) (node : Node) : Inputs := .ofList (node.inputTextsAt key)

end CiTranslate

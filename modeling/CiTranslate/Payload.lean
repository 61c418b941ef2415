import CiTranslate.Error
import CiTranslate.Groovy.Script
import CiTranslate.Payload.Yaml

/-!
The text of a pipeline, freed from what stands around it, and the format in which it is to
be read.
-/

namespace CiTranslate

inductive Payload where
  | yaml (text : String)
  | json (text : String)
  | script (text : String)
  deriving DecidableEq, Repr

namespace Payload

def text : Payload → String
  | .yaml text => text
  | .json text => text
  | .script text => text

/-- Whether nothing is left but, at most, the mark of a document. -/
def isBlank (payload : Payload) : Bool :=
  let rest := Text.trim payload.text.toList
  rest.isEmpty || rest == documentStart

/-- The payload of a text without a fence. -/
def ofBody (dialect : Dialect) (body : List Char) : Payload :=
  match dialect with
  | .jenkinsfileScripted => .script (String.ofList (Groovy.clean body))
  | .jenkinsfileDeclarative =>
    let script := Groovy.clean body
    if Groovy.isPipeline script then .script (String.ofList script)
    else .yaml (String.ofList (cleanYaml body))
  | .codepipeline =>
    if (Text.trimStart body).head? == some '\x7b' then .json (String.ofList (Text.trim body))
    else .yaml (String.ofList (cleanYaml body))
  | _ => .yaml (String.ofList (cleanYaml body))

/-- The payload of a text, which is its first fenced block or all of it. -/
def ofText (dialect : Dialect) (text : String) : Except Error Payload :=
  let payload := ofBody dialect ((fenced? text.toList).getD text.toList)
  if payload.isBlank then .error .emptyInput else .ok payload

end Payload

end CiTranslate

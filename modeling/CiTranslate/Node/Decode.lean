import CiTranslate.Error
import CiTranslate.Json.Reader
import CiTranslate.Node

/-!
Documents of texts. A pipeline document is a mapping with at least one entry.
-/

namespace CiTranslate.Node

/-- Checks that a document is a mapping that is not empty. -/
def root (node : Node) : Except Error Node :=
  match node with
  | .null => .error .emptyInput
  | .mapping [] => .error .emptyInput
  | .mapping (_ :: _) => .ok node
  | _ => .error (.misfit .rootNotMapping)

def decodeYaml (text : String) : Except Error Node :=
  match Yaml.read text with
  | .ok value => (ofValue value).root
  | .error error => .error (.decode (.yaml error))

def decodeJson (text : String) : Except Error Node :=
  match Json.read text with
  | .ok data => (ofJson data).root
  | .error error => .error (.decode (.json error))

end CiTranslate.Node

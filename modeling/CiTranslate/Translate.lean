import CiTranslate.Emitter
import CiTranslate.Source

/-!
Texts of one dialect, written in another.
-/

namespace CiTranslate

/-- Reads a text in one dialect, and writes the pipeline for the CI system of another. -/
def translate (settings : Settings) (source target : Dialect) (text : String) :
    Except Error String :=
  match Pipeline.parse source text with
  | .error error => .error error
  | .ok pipeline => (pipeline.retarget target.variant).toText settings

end CiTranslate

import CiTranslate.Text.Blank

/-!
Identifiers: names made of letters, digits and underscores, perhaps hyphens, that do not
start with a digit.
-/

namespace CiTranslate

def isIdentifierChar (hyphens : Bool) (c : Char) : Bool :=
  c.isAlphanum || c == '_' || (hyphens && c == '-')

/-- The identifier for a name. Other characters become underscores, and one is put in front
of nothing or a digit. -/
def identifier (hyphens : Bool) (name : String) : String :=
  let chars := (Text.trim name.toList).map fun c => if isIdentifierChar hyphens c then c else '_'
  match chars with
  | [] => "_"
  | c :: _ => String.ofList (if c.isDigit then '_' :: chars else chars)

end CiTranslate

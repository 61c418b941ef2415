/-!
Sets of characters given as a list of closed code-point ranges, the form in which the
Unicode character database states its properties.
-/

namespace CiTranslate.Text

/-- A set of characters: closed code-point ranges in increasing order. -/
abbrev Ranges := List (Nat × Nat)

/-- A character is in the set when one of the ranges holds its code point. -/
def Ranges.has (ranges : Ranges) (c : Char) : Bool :=
  ranges.any fun range => range.1 ≤ c.toNat && c.toNat ≤ range.2

end CiTranslate.Text

import CiTranslate.Json.Reader

/-!
Comparing data, so that what is read from a given text can be decided.

Doubles are the same as nothing: there is no telling from two of them whether they are equal.
-/

namespace CiTranslate

namespace Data

mutual

/-- Whether two values are the same, and hold no doubles. -/
def same : Data → Data → Bool
  | .null, .null => true
  | .bool value, .bool other => value == other
  | .int value, .int other => value == other
  | .text value, .text other => value == other
  | .list items, .list others => sameItems items others
  | .record fields, .record others => sameFields fields others
  | _, _ => false

def sameItems : List Data → List Data → Bool
  | [], [] => true
  | item :: items, other :: others => same item other && sameItems items others
  | _, _ => false

def sameFields : List (String × Data) → List (String × Data) → Bool
  | [], [] => true
  | (key, value) :: fields, (name, other) :: others =>
    key == name && same value other && sameFields fields others
  | _, _ => false

end

mutual

theorem eq_of_same : (data other : Data) → same data other = true → data = other
  | .null, .null, _ => rfl
  | .bool _, .bool _, found => congrArg Data.bool (beq_iff_eq.mp found)
  | .int _, .int _, found => congrArg Data.int (beq_iff_eq.mp found)
  | .text _, .text _, found => congrArg Data.text (beq_iff_eq.mp found)
  | .list items, .list others, found => congrArg Data.list (eq_of_sameItems items others found)
  | .record fields, .record others, found =>
    congrArg Data.record (eq_of_sameFields fields others found)

theorem eq_of_sameItems :
    (items others : List Data) → sameItems items others = true → items = others
  | [], [], _ => rfl
  | item :: items, other :: others, found => by
    obtain ⟨first, later⟩ := Bool.and_eq_true_iff.mp found
    rw [eq_of_same item other first, eq_of_sameItems items others later]

theorem eq_of_sameFields :
    (fields others : List (String × Data)) → sameFields fields others = true → fields = others
  | [], [], _ => rfl
  | (key, value) :: fields, (name, other) :: others, found => by
    obtain ⟨both, later⟩ := Bool.and_eq_true_iff.mp found
    obtain ⟨keys, values⟩ := Bool.and_eq_true_iff.mp both
    rw [beq_iff_eq.mp keys, eq_of_same value other values, eq_of_sameFields fields others later]

end

end Data

namespace Json

/-- What is read can be compared with what was to be read. -/
theorem readChars_eq_ok {text : List Char} {data : Data}
    (found : (readChars text).toOption.any (Data.same · data) = true) :
    readChars text = .ok data := by
  cases result : readChars text with
  | error fault => rw [result] at found; cases found
  | ok value =>
    rw [result] at found
    exact congrArg Except.ok (Data.eq_of_same value data found)

theorem read_eq_ok {text : String} {data : Data} (found : readChars text.toList = .ok data) :
    read text = .ok data := by
  rw [read, found]
  rfl

end Json

end CiTranslate

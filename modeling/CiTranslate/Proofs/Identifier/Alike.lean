import CiTranslate.Proofs.Identifier
import Mathlib.Data.List.Forall2

/-!
Names that have one identifier.

An identifier keeps letters, digits and underscores in their places and has an underscore for all
else, and it may have one more at the start. Two names therefore have the same identifier exactly
when their characters are alike place by place, or become so when a mark in front of one of them is
left out (`identifier_eq_iff`). Names that are told apart by marks or by blanks around them only are
among these.
-/

namespace CiTranslate

variable {hyphens : Bool}

/-! ### Characters -/

/-- A character that an identifier spells as an underscore. -/
def IsMark (hyphens : Bool) (c : Char) : Prop := c = '_' ∨ isIdentifierChar hyphens c = false

instance (hyphens : Bool) (c : Char) : Decidable (IsMark hyphens c) :=
  inferInstanceAs (Decidable (_ ∨ _))

/-- Characters that identifiers do not tell apart. -/
def AlikeChar (hyphens : Bool) (c d : Char) : Prop := c = d ∨ IsMark hyphens c ∧ IsMark hyphens d

instance (hyphens : Bool) (c d : Char) : Decidable (AlikeChar hyphens c d) :=
  inferInstanceAs (Decidable (_ ∨ _))

/-- A character as it stands in an identifier. -/
def spelled (hyphens : Bool) (c : Char) : Char := if isIdentifierChar hyphens c then c else '_'

theorem spelled_eq_underscore_iff {c : Char} : spelled hyphens c = '_' ↔ IsMark hyphens c := by
  unfold spelled IsMark
  split
  · next own => simp [own]
  · next other => simp [other]

theorem spelled_eq_iff {c d : Char} :
    spelled hyphens c = spelled hyphens d ↔ AlikeChar hyphens c d := by
  constructor
  · intro same
    by_cases mark : IsMark hyphens c
    · have underscore := same.symm.trans (spelled_eq_underscore_iff.mpr mark)
      exact .inr ⟨mark, spelled_eq_underscore_iff.mp underscore⟩
    · have other : ¬IsMark hyphens d := fun other =>
        mark (spelled_eq_underscore_iff.mp (same.trans (spelled_eq_underscore_iff.mpr other)))
      have left := Bool.of_not_eq_false (not_or.mp mark).2
      have right := Bool.of_not_eq_false (not_or.mp other).2
      rw [spelled, spelled, if_pos left, if_pos right] at same
      exact .inl same
  · rintro (rfl | ⟨first, second⟩)
    · rfl
    · rw [spelled_eq_underscore_iff.mpr first, spelled_eq_underscore_iff.mpr second]

theorem isDigit_spelled (c : Char) : (spelled hyphens c).isDigit = c.isDigit := by
  unfold spelled
  split
  · rfl
  · next other =>
    have letter : c.isDigit = false := by
      by_contra digit
      exact other (isIdentifierChar_of_isDigit (Bool.of_not_eq_false digit))
    rw [letter]
    rfl

/-! ### Names -/

/-- Nothing, or a text with a digit at the start: an identifier has an underscore before it. -/
def needsMark : List Char → Bool
  | [] => true
  | c :: _ => c.isDigit

/-- Texts whose identifiers are the same. -/
inductive Alike (hyphens : Bool) : List Char → List Char → Prop where
  /-- The characters are alike, place by place. -/
  | each {a b : List Char} : List.Forall₂ (AlikeChar hyphens) a b → Alike hyphens a b
  /-- The first text has itself the mark that is put before the second. -/
  | left {c : Char} {a b : List Char} : IsMark hyphens c → needsMark b = true →
      List.Forall₂ (AlikeChar hyphens) a b → Alike hyphens (c :: a) b
  /-- The second text has itself the mark that is put before the first. -/
  | right {c : Char} {a b : List Char} : IsMark hyphens c → needsMark a = true →
      List.Forall₂ (AlikeChar hyphens) b a → Alike hyphens a (c :: b)

/-- The text with the mark that it needs. -/
def marked (text : List Char) : List Char := if needsMark text then '_' :: text else text

theorem toList_identifier (name : String) :
    (identifier hyphens name).toList =
      marked ((Text.trim name.toList).map (spelled hyphens)) := by
  have shape : (Text.trim name.toList).map (spelled hyphens) =
      (Text.trim name.toList).map fun c => if isIdentifierChar hyphens c then c else '_' := rfl
  rw [identifier, shape]
  split
  · next empty =>
    rw [empty]
    rfl
  · next c rest first =>
    rw [first, String.toList_ofList]
    rfl

/-- Texts are the same with their marks if they are the same, or if one of them starts with the mark
of the other. -/
theorem marked_eq_iff {a b : List Char} :
    marked a = marked b ↔
      a = b ∨ (needsMark b = true ∧ a = '_' :: b) ∨ (needsMark a = true ∧ b = '_' :: a) := by
  have own (text : List Char) : needsMark ('_' :: text) = false := rfl
  unfold marked
  constructor
  · intro same
    split at same <;> split at same
    · exact .inl (List.cons.inj same).2
    · next needs _ => exact .inr (.inr ⟨needs, same.symm⟩)
    · next _ needs => exact .inr (.inl ⟨needs, same⟩)
    · exact .inl same
  · rintro (rfl | ⟨needs, rfl⟩ | ⟨needs, rfl⟩)
    · rfl
    · simp [needs, own]
    · simp [needs, own]

theorem needsMark_map_spelled (text : List Char) :
    needsMark (text.map (spelled hyphens)) = needsMark text := by
  cases text with
  | nil => rfl
  | cons c text => exact isDigit_spelled c

theorem map_spelled_eq_iff {a b : List Char} :
    a.map (spelled hyphens) = b.map (spelled hyphens) ↔
      List.Forall₂ (AlikeChar hyphens) a b := by
  rw [← List.forall₂_eq_eq_eq, List.forall₂_map_left_iff, List.forall₂_map_right_iff]
  simp only [spelled_eq_iff]

theorem map_spelled_eq_cons_iff {a b : List Char} :
    a.map (spelled hyphens) = '_' :: b.map (spelled hyphens) ↔
      ∃ c rest, a = c :: rest ∧ IsMark hyphens c ∧
        List.Forall₂ (AlikeChar hyphens) rest b := by
  constructor
  · intro same
    obtain ⟨c, rest, rfl, first, later⟩ := List.map_eq_cons_iff.mp same
    exact ⟨c, rest, rfl, spelled_eq_underscore_iff.mp first, map_spelled_eq_iff.mp later⟩
  · rintro ⟨c, rest, rfl, mark, alike⟩
    rw [List.map_cons, spelled_eq_underscore_iff.mpr mark, map_spelled_eq_iff.mpr alike]

/-- **Which names have one identifier.** -/
theorem identifier_eq_iff {a b : String} :
    identifier hyphens a = identifier hyphens b ↔
      Alike hyphens (Text.trim a.toList) (Text.trim b.toList) := by
  rw [← String.toList_inj, toList_identifier, toList_identifier, marked_eq_iff,
    needsMark_map_spelled, needsMark_map_spelled, map_spelled_eq_iff, map_spelled_eq_cons_iff,
    map_spelled_eq_cons_iff]
  constructor
  · rintro (alike | ⟨needs, c, rest, shape, mark, alike⟩ | ⟨needs, c, rest, shape, mark, alike⟩)
    · exact .each alike
    · exact shape ▸ .left mark needs alike
    · exact shape ▸ .right mark needs alike
  · intro alike
    generalize Text.trim a.toList = left at alike ⊢
    generalize Text.trim b.toList = right at alike ⊢
    cases alike with
    | each alike => exact .inl alike
    | left mark needs alike => exact .inr (.inl ⟨needs, _, _, rfl, mark, alike⟩)
    | right mark needs alike => exact .inr (.inr ⟨needs, _, _, rfl, mark, alike⟩)

end CiTranslate

import CiTranslate.Identifier
import CiTranslate.Proofs.Keys
import CiTranslate.Proofs.Text.Blank

/-!
Identifiers are identifiers of themselves, and so are the numbered keys that are made from
them where hyphens are allowed.
-/

namespace CiTranslate

/-! ### Characters -/

theorem toNat_of_isUpper {c : Char} (upper : c.isUpper = true) :
    65 ≤ c.toNat ∧ c.toNat ≤ 90 := by
  obtain ⟨low, high⟩ := of_decide_eq_true upper
  exact ⟨UInt32.le_iff_toNat_le.mp low, UInt32.le_iff_toNat_le.mp high⟩

theorem toNat_of_isLower {c : Char} (lower : c.isLower = true) :
    97 ≤ c.toNat ∧ c.toNat ≤ 122 := by
  obtain ⟨low, high⟩ := Bool.and_eq_true_iff.mp lower
  exact ⟨UInt32.le_iff_toNat_le.mp (of_decide_eq_true low),
    UInt32.le_iff_toNat_le.mp (of_decide_eq_true high)⟩

/-- The characters of identifiers lie between the hyphen and the last small letter. -/
theorem toNat_of_isIdentifierChar {hyphens : Bool} {c : Char}
    (h : isIdentifierChar hyphens c = true) : 45 ≤ c.toNat ∧ c.toNat ≤ 122 := by
  rcases Bool.or_eq_true_iff.mp h with word | hyphen
  · rcases Bool.or_eq_true_iff.mp word with alphanum | underscore
    · rcases Bool.or_eq_true_iff.mp alphanum with alpha | digit
      · rcases Bool.or_eq_true_iff.mp alpha with upper | lower
        · have := toNat_of_isUpper upper
          omega
        · have := toNat_of_isLower lower
          omega
      · obtain ⟨low, high⟩ := Char.isDigit_iff_toNat.mp digit
        exact ⟨Nat.le_trans (by decide) low, Nat.le_trans high (by decide)⟩
    · obtain rfl := eq_of_beq underscore
      decide
  · obtain rfl := eq_of_beq (Bool.and_eq_true_iff.mp hyphen).2
    decide

theorem not_isBlank_of_isIdentifierChar {hyphens : Bool} {c : Char}
    (h : isIdentifierChar hyphens c = true) : Text.isBlank c = false := by
  have := toNat_of_isIdentifierChar h
  simp only [Text.isBlank, Bool.or_eq_false_iff, Bool.and_eq_false_iff, decide_eq_false_iff_not,
    beq_eq_false_iff_ne]
  omega

theorem isIdentifierChar_of_isDigit {hyphens : Bool} {c : Char} (digit : c.isDigit = true) :
    isIdentifierChar hyphens c = true := by
  simp [isIdentifierChar, Char.isAlphanum, digit]

/-! ### Identifiers -/

/-- Identifier characters, the first of which is no digit. -/
structure IsIdentifier (hyphens : Bool) (text : String) : Prop where
  chars : ∀ c ∈ text.toList, isIdentifierChar hyphens c = true
  start : ∃ c rest, text.toList = c :: rest ∧ c.isDigit = false

theorem isIdentifier_identifier (hyphens : Bool) (name : String) :
    IsIdentifier hyphens (identifier hyphens name) := by
  have mapped : ∀ c ∈ (Text.trim name.toList).map fun c =>
      if isIdentifierChar hyphens c then c else '_',
      isIdentifierChar hyphens c = true := by
    intro c mem
    obtain ⟨d, -, rfl⟩ := List.mem_map.mp mem
    split
    · assumption
    · rfl
  unfold identifier
  dsimp only
  split
  · exact ⟨by simp [isIdentifierChar], '_', [], rfl, rfl⟩
  · next c rest shape =>
    rw [shape] at mapped ⊢
    by_cases digit : c.isDigit = true
    · rw [if_pos digit]
      refine ⟨fun d mem => ?_, '_', c :: rest, by simp, rfl⟩
      rw [String.toList_ofList] at mem
      rcases List.mem_cons.mp mem with rfl | mem
      · rfl
      · exact mapped d mem
    · rw [if_neg digit]
      exact ⟨by simpa using mapped, c, rest, by simp, by simpa using digit⟩

/-- An identifier is its own identifier. -/
theorem identifier_eq_self {hyphens : Bool} {text : String} (valid : IsIdentifier hyphens text) :
    identifier hyphens text = text := by
  obtain ⟨c, rest, shape, digit⟩ := valid.start
  have trimmed : Text.trim text.toList = text.toList :=
    Text.trim_eq_self fun c mem => not_isBlank_of_isIdentifierChar (valid.chars c mem)
  have kept :
      (text.toList.map fun c => if isIdentifierChar hyphens c then c else '_') = text.toList :=
    (List.map_congr_left fun c mem => if_pos (valid.chars c mem)).trans (List.map_id _)
  rw [identifier, trimmed, kept, shape]
  simp only [digit, Bool.false_eq_true, if_false]
  rw [← shape, String.ofList_toList]

/-- A numbered key of an identifier is an identifier. -/
theorem IsIdentifier.numbered {base : String} (valid : IsIdentifier true base) (n : Nat) :
    IsIdentifier true (Keys.numbered base n) := by
  obtain ⟨c, rest, shape, digit⟩ := valid.start
  refine ⟨fun d mem => ?_, c, _, by rw [Keys.toList_numbered, shape]; rfl, digit⟩
  rw [Keys.toList_numbered] at mem
  rcases List.mem_append.mp mem with mem | mem
  · exact valid.chars d mem
  · rcases List.mem_cons.mp mem with rfl | mem
    · rfl
    · rw [Nat.toString_eq_ofList_toDigits, String.toList_ofList] at mem
      exact isIdentifierChar_of_isDigit (Nat.isDigit_of_mem_toDigits (by decide) (by decide) mem)

/-- The keys for identifiers are identifiers. -/
theorem isIdentifier_of_mem_allocateAll {names : List String} {keys : Keys} {key : String}
    (handed : key ∈ (Keys.allocateAll (names.map (identifier true)) keys).1) :
    IsIdentifier true key := by
  obtain ⟨base, mem, form⟩ := Keys.exists_base_of_mem_allocateAll handed
  obtain ⟨name, -, rfl⟩ := List.mem_map.mp mem
  rcases form with rfl | ⟨n, rfl⟩
  · exact isIdentifier_identifier true name
  · exact (isIdentifier_identifier true name).numbered n

end CiTranslate

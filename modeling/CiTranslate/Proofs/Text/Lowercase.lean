import CiTranslate.Proofs.Text.Search
import CiTranslate.Text.Lowercase

/-!
Words in texts of lower case.

The only rule that looks at the neighbours of a character chooses between two small sigmas. A
word that has neither of them therefore occurs in the lower-case form of a text just where it
occurs among the forms of the single characters (`contains_lowercase`), and so it still occurs there
when something is put before and behind the text (`contains_lowercase_append`). Words of small ASCII
characters occur in the lower-case form of every text in which they occur
(`IsLowWord.contains_lowercase`).
-/

namespace CiTranslate.Text

variable {word : List Char}

/-! ### Single characters -/

/-- The small sigma for the final one; all others as they are. -/
def medial (c : Char) : Char := if c = finalSigma then smallSigma else c

/-- The lower-case forms of a character, whatever its neighbours are. -/
def forms (c : Char) : List Char :=
  if c = capitalSigma then [smallSigma]
  else if c = dottedCapitalI then ['i', combiningDotAbove]
  else [medial (lowerChar c)]

theorem map_medial_lowercaseFrom (before text : List Char) :
    (lowercaseFrom before text).map medial = text.flatMap forms := by
  induction text generalizing before with
  | nil => rfl
  | cons c text ih =>
    rw [lowercaseFrom, List.map_append, ih, List.flatMap_cons]
    refine congrArg (· ++ text.flatMap forms) ?_
    by_cases sigma : c = capitalSigma
    · rw [forms, if_pos sigma, if_pos (beq_iff_eq.mpr sigma)]
      split <;> rfl
    · by_cases dotted : c = dottedCapitalI
      · rw [forms, if_neg sigma, if_pos dotted, if_neg (by simpa using sigma),
          if_pos (beq_iff_eq.mpr dotted)]
        rfl
      · rw [forms, if_neg sigma, if_neg dotted, if_neg (by simpa using sigma),
          if_neg (by simpa using dotted)]
        rfl

/-! ### Words without sigmas -/

/-- A word that has no small sigma does not see the neighbours of characters. -/
theorem contains_lowercase (small : smallSigma ∉ word) (final : finalSigma ∉ word)
    (text : List Char) : contains word (lowercase text) = contains word (text.flatMap forms) := by
  have same : ∀ c, medial c = c ∨ c ∉ word ∧ medial c ∉ word := by
    intro c
    unfold medial
    split
    · next last => exact .inr ⟨last ▸ final, small⟩
    · exact .inl rfl
  rw [← contains_map same, lowercase, map_medial_lowercaseFrom]

/-- What occurs in the lower-case form of a text occurs in that of a longer text. -/
theorem contains_lowercase_append (small : smallSigma ∉ word) (final : finalSigma ∉ word)
    {text : List Char} (found : contains word (lowercase text) = true) (before after : List Char) :
    contains word (lowercase (before ++ text ++ after)) = true := by
  rw [contains_lowercase small final, contains_eq_true_iff] at found ⊢
  rw [List.flatMap_append, List.flatMap_append]
  exact found.trans (List.infix_append _ _ _)

/-! ### Words of small ASCII characters -/

/-- A word of ASCII characters none of which is a capital. -/
def IsLowWord (word : List Char) : Prop := ∀ c ∈ word, c.toNat < 0x80 ∧ c.isUpper = false

instance (word : List Char) : Decidable (IsLowWord word) :=
  inferInstanceAs (Decidable (∀ c ∈ word, _))

/-- A character beyond ASCII is not in such a word. -/
theorem IsLowWord.not_mem (low : IsLowWord word) {c : Char} (beyond : 0x80 ≤ c.toNat) :
    c ∉ word :=
  fun mem => absurd (low c mem).1 (Nat.not_lt.mpr beyond)

theorem forms_eq_self {c : Char} (ascii : c.toNat < 0x80) (small : c.isUpper = false) :
    forms c = [c] := by
  have differ {d : Char} (beyond : 0x80 ≤ d.toNat) : c ≠ d := fun same => by
    rw [same] at ascii
    omega
  have lower : lowerChar c = c := by
    rw [lowerChar, if_pos ascii]
    exact dif_neg (of_decide_eq_false small)
  rw [forms, if_neg (differ (by decide)), if_neg (differ (by decide)), lower, medial,
    if_neg (differ (by decide))]

theorem IsLowWord.flatMap_forms (low : IsLowWord word) : word.flatMap forms = word := by
  induction word with
  | nil => rfl
  | cons c word ih =>
    obtain ⟨ascii, small⟩ := low c (List.mem_cons_self ..)
    rw [List.flatMap_cons, forms_eq_self ascii small,
      ih fun d mem => low d (List.mem_cons_of_mem _ mem), List.singleton_append]

/-- Such a word stays where it is when the text around it becomes lower case. -/
theorem IsLowWord.contains_lowercase (low : IsLowWord word) {text : List Char}
    (found : contains word text = true) : contains word (lowercase text) = true := by
  obtain ⟨before, after, rfl⟩ := contains_eq_true_iff.mp found
  rw [Text.contains_lowercase (low.not_mem (by decide)) (low.not_mem (by decide)),
    contains_eq_true_iff, List.flatMap_append, List.flatMap_append, low.flatMap_forms]
  exact List.infix_append _ _ _

end CiTranslate.Text

import CiTranslate.Text.Search

/-!
Texts in which a word does not occur.

An occurrence cannot reach over a character that the word does not have, so that a text falls
into parts at such characters (`contains_append_cons`), and spelling them out in some other way
changes nothing (`Spells.contains_flatMap`).
-/

namespace CiTranslate.Text

variable {word : List Char}

/-! ### Parts of a text -/

theorem isPrefixOf_cons_of_not_mem {c : Char} (nonempty : word ≠ []) (foreign : c ∉ word)
    (text : List Char) : word.isPrefixOf (c :: text) = false := by
  cases word with
  | nil => exact absurd rfl nonempty
  | cons w word =>
    have differ : w ≠ c := fun same => foreign (same ▸ List.mem_cons_self ..)
    simp [List.isPrefixOf, differ]

theorem isPrefixOf_append_cons {c : Char} (foreign : c ∉ word) (text rest : List Char) :
    word.isPrefixOf (text ++ c :: rest) = word.isPrefixOf text := by
  induction text generalizing word with
  | nil =>
    cases word with
    | nil => rfl
    | cons w word => exact isPrefixOf_cons_of_not_mem (List.cons_ne_nil _ _) foreign rest
  | cons d text ih =>
    cases word with
    | nil => rfl
    | cons w word =>
      rw [List.cons_append, List.isPrefixOf, List.isPrefixOf,
        ih fun mem => foreign (List.mem_cons_of_mem _ mem)]

theorem contains_cons_of_not_mem {c : Char} (nonempty : word ≠ []) (foreign : c ∉ word)
    (text : List Char) : contains word (c :: text) = contains word text := by
  rw [contains, isPrefixOf_cons_of_not_mem nonempty foreign, Bool.false_or]

/-- A word does not occur across a character that it does not have. -/
theorem contains_append_cons {c : Char} (nonempty : word ≠ []) (foreign : c ∉ word)
    (text rest : List Char) :
    contains word (text ++ c :: rest) = (contains word text || contains word rest) := by
  induction text with
  | nil =>
    rw [List.nil_append, contains_cons_of_not_mem nonempty foreign, contains,
      List.isEmpty_eq_false_iff.mpr nonempty, Bool.false_or]
  | cons d text ih =>
    rw [List.cons_append, contains, contains, ← List.cons_append, ih,
      isPrefixOf_append_cons foreign, Bool.or_assoc]

/-- A word occurs in no text that is put together from texts in which it does not occur, if the
second begins with a character that the word does not have. -/
theorem contains_append_eq_false {text rest : List Char} (nonempty : word ≠ [])
    (foreign : ∀ c ∈ rest.head?, c ∉ word) (left : contains word text = false)
    (right : contains word rest = false) : contains word (text ++ rest) = false := by
  cases rest with
  | nil => rwa [List.append_nil]
  | cons c rest =>
    have foreign : c ∉ word := foreign c rfl
    rw [contains_cons_of_not_mem nonempty foreign] at right
    rw [contains_append_cons nonempty foreign, left, right, Bool.false_or]

/-- Where a word does not begin in a text, it does not begin before a character that does not
continue it. -/
theorem isPrefixOf_append_eq_false {text rest : List Char} (nonempty : text ≠ [])
    (absent : ¬word <+: text) (next : ∀ c ∈ rest.head?, c ∉ word.tail) :
    word.isPrefixOf (text ++ rest) = false := by
  refine Bool.eq_false_iff.mpr fun found => absent ?_
  obtain ⟨more, same⟩ := List.isPrefixOf_iff_prefix.mp found
  rcases List.append_eq_append_iff.mp same with ⟨later, rfl, -⟩ | ⟨later, rfl, rfl⟩
  · exact List.prefix_append word later
  · cases later with
    | nil => exact ⟨[], by simp⟩
    | cons c later =>
      obtain ⟨first, text, rfl⟩ := List.exists_cons_of_ne_nil nonempty
      exact absurd (List.mem_append_right text (List.mem_cons_self ..)) (next c rfl)

theorem contains_nil (text : List Char) : contains [] text = true := by
  cases text <;> rfl

/-- A word occurs in a text where it is a part of it. -/
theorem contains_eq_true_iff {text : List Char} : contains word text = true ↔ word <:+: text := by
  induction text with
  | nil => rw [contains, List.isEmpty_iff, List.infix_nil]
  | cons c text ih =>
    rw [contains, Bool.or_eq_true, List.isPrefixOf_iff_prefix, ih, List.infix_cons_iff]

theorem contains_eq_false_iff {text : List Char} :
    contains word text = false ↔ ¬word <:+: text := by
  rw [← contains_eq_true_iff, Bool.not_eq_true]

/-! ### Words at the start -/

theorem dropPrefix?_eq_some {text rest : List Char}
    (found : dropPrefix? word text = some rest) : text = word ++ rest := by
  induction word generalizing text with
  | nil => exact Option.some.inj found
  | cons w word ih =>
    cases text with
    | nil => cases found
    | cons c text =>
      rw [dropPrefix?] at found
      split at found
      · next same => rw [← eq_of_beq same, ih found, List.cons_append]
      · cases found

theorem dropPrefix?_append (rest : List Char) : dropPrefix? word (word ++ rest) = some rest := by
  induction word with
  | nil => cases rest <;> rfl
  | cons w word ih => rw [List.cons_append, dropPrefix?, if_pos (beq_self_eq_true w), ih]

/-- A word is not dropped from a text in which it does not occur. -/
theorem dropPrefix?_eq_none {text : List Char} (absent : word.isPrefixOf text = false) :
    dropPrefix? word text = none := by
  cases found : dropPrefix? word text with
  | none => rfl
  | some rest =>
    rw [dropPrefix?_eq_some found, List.isPrefixOf_iff_prefix.mpr (List.prefix_append word rest)]
      at absent
    cases absent

/-! ### Characters that are spelled out -/

/-- The characters of a word stay, and others become something that has none of them. -/
structure Spells (word : List Char) (f : Char → List Char) : Prop where
  kept : ∀ c ∈ word, f c = [c]
  other : ∀ c ∉ word, f c ≠ [] ∧ ∀ d ∈ f c, d ∉ word

/-- A word does not begin among characters that it does not have. -/
theorem contains_append_of_foreign {start : List Char} (nonempty : word ≠ [])
    (foreign : ∀ c ∈ start, c ∉ word) (text : List Char) :
    contains word (start ++ text) = contains word text := by
  induction start with
  | nil => rfl
  | cons c start ih =>
    rw [List.cons_append, contains_cons_of_not_mem nonempty (foreign c (List.mem_cons_self ..)),
      ih fun d mem => foreign d (List.mem_cons_of_mem _ mem)]

theorem Spells.isPrefixOf_flatMap {f : Char → List Char} (spells : Spells word f)
    {part : List Char} (inside : ∀ c ∈ part, c ∈ word) (text : List Char) :
    part.isPrefixOf (text.flatMap f) = part.isPrefixOf text := by
  induction part generalizing text with
  | nil => rw [List.isPrefixOf_nil_left, List.isPrefixOf_nil_left]
  | cons w part ih =>
    have own : w ∈ word := inside w (List.mem_cons_self ..)
    cases text with
    | nil => rfl
    | cons c text =>
      rw [List.flatMap_cons]
      by_cases mem : c ∈ word
      · rw [spells.kept c mem, List.singleton_append, List.isPrefixOf, List.isPrefixOf,
          ih fun d hd => inside d (List.mem_cons_of_mem _ hd)]
      · obtain ⟨filled, foreign⟩ := spells.other c mem
        obtain ⟨d, rest, shape⟩ := List.exists_cons_of_ne_nil filled
        have first : w ≠ c := fun same => mem (same ▸ own)
        have second : w ≠ d := fun same => foreign d (by simp [shape]) (same ▸ own)
        rw [shape, List.cons_append, List.isPrefixOf, List.isPrefixOf, beq_false_of_ne first,
          beq_false_of_ne second, Bool.false_and, Bool.false_and]

/-- Spelling characters out does not matter to a word that has none of them. -/
theorem Spells.contains_flatMap {f : Char → List Char} (spells : Spells word f)
    (text : List Char) : contains word (text.flatMap f) = contains word text := by
  by_cases nonempty : word = []
  · rw [nonempty, contains_nil, contains_nil]
  induction text with
  | nil => rfl
  | cons c text ih =>
    by_cases mem : c ∈ word
    · have first := spells.isPrefixOf_flatMap (fun d hd => hd) (c :: text)
      rw [List.flatMap_cons, spells.kept c mem, List.singleton_append] at first ⊢
      rw [contains, contains, first, ih]
    · rw [List.flatMap_cons, contains_append_of_foreign nonempty (spells.other c mem).2, ih,
        contains_cons_of_not_mem nonempty mem]

/-- Replacing characters that a word does not have by others of that kind does not matter. -/
theorem contains_map {f : Char → Char} (same : ∀ c, f c = c ∨ c ∉ word ∧ f c ∉ word)
    (text : List Char) : contains word (text.map f) = contains word text := by
  have spells : Spells word fun c => [f c] := by
    refine ⟨fun c mem => ?_, fun c foreign => ⟨List.cons_ne_nil _ _, fun d mem => ?_⟩⟩
    · rcases same c with kept | ⟨absent, -⟩
      · rw [kept]
      · exact absurd mem absent
    · obtain rfl := List.mem_singleton.mp mem
      rcases same c with kept | ⟨-, absent⟩
      · rwa [kept]
      · exact absent
  rw [← spells.contains_flatMap text, List.map_eq_flatMap]

/-! ### Words that do not occur -/

/-- Nothing is removed from a text in which the word does not occur. -/
theorem remove_eq_self {text : List Char} (absent : contains word text = false) :
    remove word text = text := by
  rw [remove]
  induction text with
  | nil => rfl
  | cons c text ih =>
    obtain ⟨here, later⟩ := Bool.or_eq_false_iff.mp absent
    simp [removeFrom, here, ih later]

/-- A character that a word does not have is not removed with it. -/
theorem remove_append_singleton {c : Char} (nonempty : word ≠ []) (foreign : c ∉ word)
    (text : List Char) :
    remove word (text ++ [c]) = remove word text ++ [c] := by
  suffices run : ∀ skip, skip ≤ text.length →
      removeFrom word skip (text ++ [c]) = removeFrom word skip text ++ [c] from
    run 0 (Nat.zero_le _)
  induction text with
  | nil =>
    intro skip none
    obtain rfl := Nat.le_zero.mp none
    simp [removeFrom, isPrefixOf_cons_of_not_mem nonempty foreign]
  | cons d text ih =>
    intro skip short
    cases skip with
    | succ skip => exact ih skip (Nat.le_of_succ_le_succ short)
    | zero =>
      have here := isPrefixOf_append_cons foreign (d :: text) []
      rw [List.cons_append] at here ⊢
      rw [removeFrom, removeFrom, here]
      split
      · next found =>
        have fits := (List.isPrefixOf_iff_prefix.mp found).length_le
        rw [List.length_cons] at fits
        exact ih _ (by omega)
      · rw [ih 0 (Nat.zero_le _), List.cons_append]

end CiTranslate.Text

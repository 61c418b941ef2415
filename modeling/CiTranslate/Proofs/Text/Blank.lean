import CiTranslate.Text.Blank

/-!
Trimming takes blanks from the ends of a text and stops at the first other character.
-/

namespace CiTranslate.Text

/-- A character that is blank is no capital, and stays as it is. -/
theorem isBlank_toLower {c : Char} (blank : isBlank c = true) :
    isBlank c.toLower = true := by
  unfold Char.toLower
  split
  · next capital =>
    have low := UInt32.le_iff_toNat_le.mp capital.1
    have high := UInt32.le_iff_toNat_le.mp capital.2
    change 65 ≤ c.toNat at low
    change c.toNat ≤ 90 at high
    simp only [isBlank, Bool.or_eq_true, Bool.and_eq_true, decide_eq_true_eq,
      beq_iff_eq] at blank
    omega
  · exact blank

/-! ### At the start -/

@[simp] theorem trimStart_nil : trimStart [] = [] := rfl

theorem trimStart_cons_of_blank {c : Char} (blank : isBlank c = true) (text : List Char) :
    trimStart (c :: text) = trimStart text :=
  List.dropWhile_cons_of_pos blank

theorem trimStart_cons_of_not_blank {c : Char} (visible : isBlank c = false) (text : List Char) :
    trimStart (c :: text) = c :: text :=
  List.dropWhile_cons_of_neg (by simp [visible])

theorem trimStart_append_of_blank {blanks : List Char} (blank : ∀ c ∈ blanks, isBlank c = true)
    (text : List Char) : trimStart (blanks ++ text) = trimStart text :=
  List.dropWhile_append_of_pos blank

theorem trimStart_eq_self {text : List Char} (visible : ∀ c ∈ text.head?, isBlank c = false) :
    trimStart text = text := by
  cases text with
  | nil => rfl
  | cons c text => exact trimStart_cons_of_not_blank (visible c rfl) text

/-- What is left at the start is visible. -/
theorem isBlank_head?_trimStart (text : List Char) :
    ∀ c ∈ (trimStart text).head?, isBlank c = false := by
  intro c first
  have stopped := List.head?_dropWhile_not isBlank text
  rw [show (text.dropWhile isBlank).head? = some c from first] at stopped
  simpa using stopped

/-- Blanks at the end stay behind what is visible. -/
theorem trimStart_append_blanks (text : List Char) {blanks : List Char}
    (blank : ∀ c ∈ blanks, isBlank c = true) :
    trimStart (text ++ blanks) = if trimStart text = [] then [] else trimStart text ++ blanks := by
  have all : trimStart blanks = [] := by
    have passed := trimStart_append_of_blank blank []
    rwa [List.append_nil] at passed
  rw [trimStart, List.dropWhile_append]
  simp only [List.isEmpty_iff]
  split
  · next empty => rw [if_pos (by exact empty)]; exact all
  · next filled => rw [if_neg (by exact filled)]; rfl

/-! ### At the end -/

@[simp] theorem trimEnd_nil : trimEnd [] = [] := rfl

/-- Blanks at the end are dropped. -/
theorem trimEnd_append_of_blank (text : List Char) {blanks : List Char}
    (blank : ∀ c ∈ blanks, isBlank c = true) : trimEnd (text ++ blanks) = trimEnd text := by
  rw [trimEnd, List.reverse_append, List.dropWhile_append_of_pos]
  · rfl
  · exact fun c mem => blank c (List.mem_reverse.mp mem)

/-- Nothing is dropped before a character that is not blank. -/
theorem trimEnd_append_cons (text : List Char) {c : Char} (visible : isBlank c = false)
    (rest : List Char) : trimEnd (text ++ c :: rest) = text ++ c :: trimEnd rest := by
  have shape : (text ++ c :: rest).reverse = rest.reverse ++ c :: text.reverse := by simp
  rw [trimEnd, trimEnd, shape, List.dropWhile_append]
  split
  · next empty =>
    rw [List.isEmpty_iff.mp empty, List.dropWhile_cons_of_neg (by simp [visible])]
    simp
  · simp

theorem trimEnd_eq_self {text : List Char} (visible : ∀ c ∈ text.getLast?, isBlank c = false) :
    trimEnd text = text := by
  rcases List.eq_nil_or_concat text with rfl | ⟨start, c, rfl⟩
  · rfl
  · rw [List.concat_eq_append] at visible ⊢
    exact trimEnd_append_cons start (visible c (by simp)) []

/-- What is left at the end is visible. -/
theorem isBlank_getLast?_trimEnd (text : List Char) :
    ∀ c ∈ (trimEnd text).getLast?, isBlank c = false := by
  intro c last
  rw [trimEnd, List.getLast?_reverse] at last
  exact isBlank_head?_trimStart text.reverse c last

theorem exists_blanks_trimEnd (text : List Char) :
    ∃ blanks, (∀ c ∈ blanks, isBlank c = true) ∧ trimEnd text ++ blanks = text := by
  refine ⟨(text.reverse.takeWhile isBlank).reverse, ?_, ?_⟩
  · intro c mem
    exact List.all_eq_true.mp List.all_takeWhile c (List.mem_reverse.mp mem)
  · rw [trimEnd, ← List.reverse_append, List.takeWhile_append_dropWhile, List.reverse_reverse]

/-! ### At both ends -/

/-- A text without blanks stays as it is. -/
theorem trim_eq_self {text : List Char} (visible : ∀ c ∈ text, isBlank c = false) :
    trim text = text := by
  cases text with
  | nil => rfl
  | cons c text =>
    rw [trim, trimStart_cons_of_not_blank (visible c (List.mem_cons_self ..))]
    exact trimEnd_eq_self fun d last => visible d (List.mem_of_getLast? last)

/-- Blanks around a text that has none at its own ends are taken away, and nothing else. -/
theorem trim_between {before text after : List Char}
    (blankBefore : ∀ c ∈ before, isBlank c = true) (blankAfter : ∀ c ∈ after, isBlank c = true)
    (start : ∀ c ∈ text.head?, isBlank c = false) (stop : ∀ c ∈ text.getLast?, isBlank c = false) :
    trim (before ++ text ++ after) = text := by
  have passed : trimStart (before ++ text ++ after) = trimStart (text ++ after) := by
    rw [List.append_assoc, trimStart_append_of_blank blankBefore]
  cases text with
  | nil =>
    have rest : trimStart after = [] := by
      have all := trimStart_append_of_blank blankAfter []
      rwa [List.append_nil] at all
    rw [trim, passed, List.nil_append, rest, trimEnd_nil]
  | cons c text =>
    rw [trim, passed, List.cons_append, trimStart_cons_of_not_blank (start c rfl),
      ← List.cons_append, trimEnd_append_of_blank _ blankAfter, trimEnd_eq_self stop]

/-- A text is what is left of it when it is trimmed, between blanks. -/
theorem exists_blanks_trim (text : List Char) :
    ∃ before after, text = before ++ trim text ++ after ∧
      (∀ c ∈ before, isBlank c = true) ∧ ∀ c ∈ after, isBlank c = true := by
  obtain ⟨after, blank, whole⟩ := exists_blanks_trimEnd (trimStart text)
  refine ⟨text.takeWhile isBlank, after, ?_, List.all_eq_true.mp List.all_takeWhile, blank⟩
  rw [List.append_assoc, trim, whole, trimStart, List.takeWhile_append_dropWhile]

/-- Blanks at the end are trimmed away. -/
theorem trim_append_of_blank (text : List Char) {blanks : List Char}
    (blank : ∀ c ∈ blanks, isBlank c = true) : trim (text ++ blanks) = trim text := by
  rw [trim, trim, trimStart_append_blanks text blank]
  split
  · next empty => rw [empty]
  · exact trimEnd_append_of_blank _ blank

/-- The ends are trimmed one after the other, in any order. -/
theorem trimStart_trimEnd (text : List Char) : trimStart (trimEnd text) = trim text := by
  obtain ⟨blanks, blank, whole⟩ := exists_blanks_trimEnd text
  have last : trimEnd (trimStart (trimEnd text)) = trimStart (trimEnd text) := by
    obtain ⟨start, shape⟩ : trimStart (trimEnd text) <:+ trimEnd text :=
      List.dropWhile_suffix isBlank
    refine trimEnd_eq_self fun c final => isBlank_getLast?_trimEnd text c ?_
    rw [← shape, List.getLast?_append, Option.mem_def.mp final]
    rfl
  calc trimStart (trimEnd text)
      = trim (trimEnd text) := last.symm
    _ = trim (trimEnd text ++ blanks) := (trim_append_of_blank _ blank).symm
    _ = trim text := by rw [whole]

end CiTranslate.Text

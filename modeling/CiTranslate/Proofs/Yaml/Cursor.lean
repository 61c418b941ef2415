import CiTranslate.Yaml.Token.Gap
import CiTranslate.Yaml.Writer

/-!
How the cursor moves over texts whose characters are known, and over the gaps between words.

Within a line a position is moved by a text as a whole (`Mark.after`). What follows a text matters
only by its first character, so that each lemma goes on with any rest that stops it.
-/

namespace CiTranslate.Yaml

/-! ### Positions -/

namespace Mark

/-- The position after a text within a line. -/
def after (mark : Mark) (text : List Char) : Mark :=
  { mark with
    index := mark.index + Text.byteLength text, column := mark.column + text.length }

/-- The position after line breaks that stay as they are. -/
def afterBreaks (mark : Mark) : List Char → Mark
  | [] => mark
  | c :: breaks => afterBreaks ⟨mark.index + c.utf8Size, mark.line + 1, 0⟩ breaks

@[simp] theorem after_nil (mark : Mark) : mark.after [] = mark := rfl

@[simp] theorem after_after (mark : Mark) (text more : List Char) :
    (mark.after text).after more = mark.after (text ++ more) := by
  simp [after, Nat.add_assoc]

@[simp] theorem column_after (mark : Mark) (text : List Char) :
    (mark.after text).column = mark.column + text.length := rfl

@[simp] theorem line_after (mark : Mark) (text : List Char) :
    (mark.after text).line = mark.line := rfl

@[simp] theorem afterBreaks_nil (mark : Mark) : mark.afterBreaks [] = mark := rfl

@[simp] theorem line_afterBreaks (mark : Mark) (breaks : List Char) :
    (mark.afterBreaks breaks).line = mark.line + breaks.length := by
  induction breaks generalizing mark with
  | nil => rfl
  | cons c breaks ih =>
    rw [afterBreaks, ih, List.length_cons, Nat.add_right_comm, Nat.add_assoc]

theorem column_afterBreaks {breaks : List Char} (some : breaks ≠ []) (mark : Mark) :
    (mark.afterBreaks breaks).column = 0 := by
  induction breaks generalizing mark with
  | nil => exact absurd rfl some
  | cons c breaks ih =>
    rw [afterBreaks]
    cases breaks with
    | nil => rfl
    | cons d breaks => exact ih (List.cons_ne_nil _ _) _

end Mark

/-! ### Characters -/

/-- A line break that is read as it is. -/
def KeptBreak (c : Char) : Prop := c = '\n' ∨ c = lineSeparator ∨ c = paragraphSeparator

/-- The text goes on with something else than a blank or a line break, or ends. -/
def AtWord (text : List Char) : Prop := ∀ c ∈ text.head?, isBlankOrBreak c = false

theorem KeptBreak.isBreak {c : Char} (kept : KeptBreak c) : isBreak c = true := by
  rcases kept with rfl | rfl | rfl <;> rfl

theorem KeptBreak.not_isSpaceOrTab {c : Char} (kept : KeptBreak c) : isSpaceOrTab c = false := by
  rcases kept with rfl | rfl | rfl <;> rfl

/-- All breaks that are written are kept. -/
theorem KeptBreak.of_isPrintable {c : Char} (lineEnd : Yaml.isBreak c = true)
    (printable : isPrintable c = true) : KeptBreak c := by
  simp only [Yaml.isBreak, Bool.or_eq_true, beq_iff_eq] at lineEnd
  rcases lineEnd with (((rfl | rfl) | rfl) | rfl) | rfl
  · cases printable
  · exact .inl rfl
  · cases printable
  · exact .inr (.inl rfl)
  · exact .inr (.inr rfl)

theorem not_isBlankOrBreak {c : Char} (other : isBlankOrBreak c = false) :
    isSpaceOrTab c = false ∧ isBreak c = false := by
  simpa only [isBlankOrBreak, Bool.or_eq_false_iff] using other

theorem atBlankOrEnd_cons (c : Char) (rest : List Char) :
    atBlankOrEnd (c :: rest) = isBlankOrBreak c := rfl

theorem AtWord.nil : AtWord [] := fun _ mem => nomatch mem

theorem atWord_cons {c : Char} {rest : List Char} :
    AtWord (c :: rest) ↔ isBlankOrBreak c = false := by
  simp [AtWord]

@[simp] theorem length_spaces (n : Nat) : (spaces n).length = n := List.length_replicate

@[simp] theorem spaces_zero : spaces 0 = [] := rfl

theorem spaces_succ (n : Nat) : spaces (n + 1) = ' ' :: spaces n := rfl

theorem spaces_succ' (n : Nat) : spaces (n + 1) = spaces n ++ [' '] := List.replicate_succ'

theorem eq_of_mem_spaces {n : Nat} {c : Char} (mem : c ∈ spaces n) : c = ' ' :=
  (List.mem_replicate.mp mem).2

/-! ### Neighbours -/

theorem anyNeighbours_cons (p : Char → Char → Bool) (c : Char) (text : List Char) :
    anyNeighbours p (c :: text) = (text.head?.any (p c) || anyNeighbours p text) := by
  cases text with
  | nil => rfl
  | cons d text => rfl

theorem anyNeighbours_append_right {p : Char → Char → Bool} {text rest : List Char}
    (none : anyNeighbours p (text ++ rest) = false) : anyNeighbours p rest = false := by
  induction text with
  | nil => exact none
  | cons c text ih =>
    rw [List.cons_append, anyNeighbours_cons, Bool.or_eq_false_iff] at none
    exact ih none.2

theorem not_of_anyNeighbours {p : Char → Char → Bool} {text : List Char} {c d : Char}
    {rest : List Char} (none : anyNeighbours p (text ++ c :: d :: rest) = false) :
    p c d = false := by
  have pair := anyNeighbours_append_right none
  rw [anyNeighbours, Bool.or_eq_false_iff] at pair
  exact pair.1

/-! ### Runs -/

/-- A text is a run of characters of one kind, and a rest that starts with another one. -/
theorem exists_run (p : Char → Bool) (text : List Char) :
    ∃ run rest, text = run ++ rest ∧ (∀ c ∈ run, p c = true) ∧ ∀ c ∈ rest.head?, p c = false := by
  refine ⟨text.takeWhile p, text.dropWhile p, List.takeWhile_append_dropWhile.symm,
    List.all_eq_true.mp List.all_takeWhile, fun c mem => ?_⟩
  have stops := List.head?_dropWhile_not p text
  rw [Option.mem_def.mp mem] at stops
  exact stops

/-- A run is taken as a whole. -/
theorem takeWhile_run {p : Char → Bool} {run rest : List Char} (all : ∀ c ∈ run, p c = true)
    (stop : ∀ c ∈ rest.head?, p c = false) : (run ++ rest).takeWhile p = run := by
  have stops : rest.takeWhile p = [] := by
    cases rest with
    | nil => rfl
    | cons c rest => exact List.takeWhile_cons_of_neg (by simp [stop c rfl])
  rw [List.takeWhile_append_of_pos all, stops, List.append_nil]

theorem exists_spaces (text : List Char) :
    ∃ n rest, text = spaces n ++ rest ∧ ∀ c ∈ rest.head?, c ≠ ' ' := by
  obtain ⟨run, rest, whole, blanks, stop⟩ := exists_run (· == ' ') text
  have all : run = spaces run.length :=
    List.eq_replicate_of_mem fun c mem => by simpa using blanks c mem
  exact ⟨run.length, rest, all ▸ whole, fun c mem => by simpa using stop c mem⟩

/-! ### Moving within a line -/

namespace Cursor

@[simp] theorem skip_cons (c : Char) (rest : List Char) (mark : Mark) :
    (⟨c :: rest, mark⟩ : Cursor).skip = ⟨rest, mark.after [c]⟩ := by
  simp [skip, Mark.after]

@[simp] theorem skipMany_append (text rest : List Char) (mark : Mark) :
    (⟨text ++ rest, mark⟩ : Cursor).skipMany text.length = ⟨rest, mark.after text⟩ := by
  simp [skipMany, Mark.after]

theorem takeWhile_append {p : Char → Bool} {text rest : List Char} (all : ∀ c ∈ text, p c = true)
    (stop : ∀ c ∈ rest.head?, p c = false) (mark : Mark) :
    (⟨text ++ rest, mark⟩ : Cursor).takeWhile p = (text, ⟨rest, mark.after text⟩) := by
  simp only [takeWhile, takeWhile_run all stop, skipMany_append]

theorem skipWhile_append {p : Char → Bool} {text rest : List Char} (all : ∀ c ∈ text, p c = true)
    (stop : ∀ c ∈ rest.head?, p c = false) (mark : Mark) :
    (⟨text ++ rest, mark⟩ : Cursor).skipWhile p = ⟨rest, mark.after text⟩ := by
  rw [skipWhile, takeWhile_append all stop]

/-- What stops at the first character does not move. -/
theorem skipWhile_of_stop {p : Char → Bool} {rest : List Char}
    (stop : ∀ c ∈ rest.head?, p c = false) (mark : Mark) :
    (⟨rest, mark⟩ : Cursor).skipWhile p = ⟨rest, mark⟩ :=
  skipWhile_append (fun _ mem => nomatch mem : ∀ c ∈ [], p c = true) stop mark

/-! ### Line breaks -/

theorem takeBreak_cons {c : Char} (kept : KeptBreak c) (rest : List Char) (mark : Mark) :
    (⟨c :: rest, mark⟩ : Cursor).takeBreak = ([c], ⟨rest, mark.afterBreaks [c]⟩) := by
  rcases kept with rfl | rfl | rfl <;> rfl

theorem skipBreak_cons {c : Char} (kept : KeptBreak c) (rest : List Char) (mark : Mark) :
    (⟨c :: rest, mark⟩ : Cursor).skipBreak = ⟨rest, mark.afterBreaks [c]⟩ := by
  rw [skipBreak, takeBreak_cons kept]

/-! ### Markers -/

/-- A text that does not start with three hyphens or three dots. -/
def Unmarked (text : List Char) : Prop :=
  ¬['-', '-', '-'] <+: text ∧ ¬['.', '.', '.'] <+: text

theorem not_atMarker {c : Char} {rest : List Char} (other : ¬[c, c, c] <+: rest) (mark : Mark) :
    (⟨rest, mark⟩ : Cursor).atMarker c = false := by
  refine Bool.eq_false_iff.mpr fun marked => ?_
  obtain ⟨-, three⟩ := Bool.and_eq_true_iff.mp marked
  split at three
  · next x y z rest shape =>
    simp only [Bool.and_eq_true, beq_iff_eq] at three
    obtain ⟨⟨⟨rfl, rfl⟩, rfl⟩, -⟩ := three
    exact other ⟨rest, shape.symm⟩
  · cases three

theorem not_atMarker_of_column {mark : Mark} (moved : mark.column ≠ 0) (c : Char)
    (rest : List Char) : (⟨rest, mark⟩ : Cursor).atMarker c = false := by
  simp [atMarker, moved]

theorem not_atDocumentMarker {rest : List Char} {mark : Mark}
    (unmarked : mark.column ≠ 0 ∨ Unmarked rest) :
    (⟨rest, mark⟩ : Cursor).atDocumentMarker = false := by
  rcases unmarked with moved | ⟨hyphens, dots⟩
  · simp [atDocumentMarker, not_atMarker_of_column moved]
  · simp [atDocumentMarker, not_atMarker hyphens, not_atMarker dots]

end Cursor

/-! ### Gaps -/

namespace Gap

/-- Blanks at the start of a line are passed over. -/
theorem readFrom_indentation {gap : Gap} (broken : gap.broken = true) (indent : Nat)
    {n steps : Nat} {rest : List Char} (atWord : AtWord rest) (enough : n < steps) (mark : Mark) :
    readFrom indent steps gap ⟨spaces n ++ rest, mark⟩ =
      .ok (gap, ⟨rest, mark.after (spaces n)⟩) := by
  induction n generalizing steps mark with
  | zero =>
    obtain ⟨steps, rfl⟩ := Nat.exists_eq_add_of_lt enough
    cases rest with
    | nil => simp [readFrom]
    | cons c rest =>
      obtain ⟨noBlank, noBreak⟩ := not_isBlankOrBreak (atWord_cons.mp atWord)
      simp [readFrom, noBlank, noBreak]
  | succ n ih =>
    obtain ⟨steps, rfl⟩ : ∃ more, steps = more + 1 := ⟨steps - 1, by omega⟩
    rw [spaces_succ, List.cons_append, readFrom]
    simp only [isSpaceOrTab, beq_self_eq_true, Bool.true_or, if_true, broken, Cursor.skip_cons]
    simp [ih (Nat.lt_of_succ_lt_succ enough)]

/-- Line breaks after the first one are collected. -/
theorem readFrom_breaks {gap : Gap} (broken : gap.broken = true) (indent : Nat)
    {breaks : List Char} (kept : ∀ c ∈ breaks, KeptBreak c) {n steps : Nat} {rest : List Char}
    (atWord : AtWord rest) (enough : breaks.length + n < steps) (mark : Mark) :
    readFrom indent steps gap ⟨breaks ++ (spaces n ++ rest), mark⟩ =
      .ok ({ gap with more := gap.more ++ breaks },
        ⟨rest, (mark.afterBreaks breaks).after (spaces n)⟩) := by
  induction breaks generalizing gap steps mark with
  | nil =>
    rw [List.nil_append, readFrom_indentation broken indent atWord (by simpa using enough)]
    simp
  | cons c breaks ih =>
    obtain ⟨steps, rfl⟩ : ∃ more, steps = more + 1 := ⟨steps - 1, by omega⟩
    have first := kept c (List.mem_cons_self ..)
    rw [List.cons_append, readFrom]
    simp only [first.not_isSpaceOrTab, first.isBreak, Cursor.takeBreak_cons first, broken, if_true,
      Bool.false_eq_true, if_false]
    rw [ih rfl (fun d mem => kept d (List.mem_cons_of_mem _ mem))
      (by simp only [List.length_cons] at enough; omega)]
    simp [Mark.afterBreaks]

/-- A gap within a line is its blanks. -/
theorem read_spaces (indent n : Nat) {rest : List Char} (atWord : AtWord rest) (mark : Mark) :
    ({} : Gap).read indent ⟨spaces n ++ rest, mark⟩ =
      .ok ({ blanks := spaces n }, ⟨rest, mark.after (spaces n)⟩) := by
  have run (blanks : List Char) (steps : Nat) (enough : n < steps) (mark : Mark) :
      readFrom indent steps { blanks } ⟨spaces n ++ rest, mark⟩ =
        .ok ({ blanks := blanks ++ spaces n },
          ⟨rest, mark.after (spaces n)⟩) := by
    induction n generalizing blanks steps mark with
    | zero =>
      obtain ⟨steps, rfl⟩ := Nat.exists_eq_add_of_lt enough
      cases rest with
      | nil => simp [readFrom]
      | cons c rest =>
        obtain ⟨noBlank, noBreak⟩ := not_isBlankOrBreak (atWord_cons.mp atWord)
        simp [readFrom, noBlank, noBreak]
    | succ n ih =>
      obtain ⟨steps, rfl⟩ : ∃ more, steps = more + 1 := ⟨steps - 1, by omega⟩
      rw [spaces_succ, List.cons_append, readFrom]
      simp only [isSpaceOrTab, beq_self_eq_true, Bool.true_or, if_true, Cursor.skip_cons]
      simp [ih _ _ (Nat.lt_of_succ_lt_succ enough)]
  have enough : n < (spaces n ++ rest).length + 1 := by
    rw [List.length_append, length_spaces]
    omega
  exact run [] _ enough mark

/-- A gap over line breaks is those breaks, without the indentation of the line that follows. -/
theorem read_breaks (indent : Nat) {c : Char} {breaks : List Char} (first : KeptBreak c)
    (kept : ∀ d ∈ breaks, KeptBreak d) (n : Nat) {rest : List Char} (atWord : AtWord rest)
    (mark : Mark) :
    ({} : Gap).read indent ⟨c :: breaks ++ (spaces n ++ rest), mark⟩ =
      .ok ({ broken := true, first := [c], more := breaks },
        ⟨rest, (mark.afterBreaks (c :: breaks)).after (spaces n)⟩) := by
  rw [Gap.read, List.cons_append, readFrom]
  simp only [first.not_isSpaceOrTab, first.isBreak, Cursor.takeBreak_cons first, if_true,
    Bool.false_eq_true, if_false]
  have enough : breaks.length + n < (c :: (breaks ++ (spaces n ++ rest))).length := by
    simp only [List.length_cons, List.length_append, length_spaces]
    omega
  rw [readFrom_breaks rfl indent kept atWord enough]
  simp [Mark.afterBreaks]

end Gap

end CiTranslate.Yaml

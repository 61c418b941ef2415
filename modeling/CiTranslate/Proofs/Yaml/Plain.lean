import CiTranslate.Proofs.Yaml.Cursor
import CiTranslate.Yaml.Token.Plain

/-!
Plain scalars are read up to their end.

A text of one line is read word by word. It goes on over every blank in it, since no word starts
a comment, and over every colon, since no blank follows one (`readPlainFrom_eq`). It ends before
the colon of a key, or with its line.
-/

namespace CiTranslate.Yaml

/-! ### Texts -/

/-- What is left of a plain text of one line from some word on. -/
structure PlainFrom (text : List Char) : Prop where
  oneLine : ∀ c ∈ text, isBreak c = false ∧ c ≠ '\t'
  colons : anyNeighbours (fun c d => c == ':' && isBlankOrBreak d) text = false
  comments : anyNeighbours (fun c d => isBlankOrBreak c && d == '#') text = false
  last : ∀ c ∈ text.getLast?, c ≠ ':' ∧ c ≠ ' '

/-- The text starts a word. -/
def StartsWord (text : List Char) : Prop := ∃ c rest, text = c :: rest ∧ c ≠ ' ' ∧ c ≠ '#'

theorem PlainFrom.append_right {text rest : List Char} (plain : PlainFrom (text ++ rest)) :
    PlainFrom rest where
  oneLine c mem := plain.oneLine c (List.mem_append_right text mem)
  colons := anyNeighbours_append_right plain.colons
  comments := anyNeighbours_append_right plain.comments
  last c last := by
    refine plain.last c ?_
    rw [List.getLast?_append, Option.mem_def.mp last]
    rfl

theorem PlainFrom.tail {c : Char} {text : List Char} (plain : PlainFrom (c :: text)) :
    PlainFrom text :=
  (show PlainFrom ([c] ++ text) from plain).append_right

/-- A word, and the blanks before the next one. -/
theorem PlainFrom.exists_word {text : List Char} (plain : PlainFrom text)
    (starts : StartsWord text) :
    ∃ word, word ≠ [] ∧ word = text.takeWhile (· != ' ') ∧
      (text.dropWhile (· != ' ') = [] ∧ text = word ∨
        ∃ n more, text.dropWhile (· != ' ') = spaces (n + 1) ++ more ∧ StartsWord more ∧
          text = word ++ (spaces (n + 1) ++ more)) := by
  obtain ⟨c, rest, rfl, noBlank, noHash⟩ := starts
  obtain ⟨word, isWord⟩ : ∃ word, word = (c :: rest).takeWhile (· != ' ') := ⟨_, rfl⟩
  obtain ⟨left, isLeft⟩ : ∃ left, left = (c :: rest).dropWhile (· != ' ') := ⟨_, rfl⟩
  have whole : word ++ left = c :: rest := by
    rw [isWord, isLeft, List.takeWhile_append_dropWhile]
  have filled : word ≠ [] := by
    rw [isWord, List.takeWhile_cons_of_pos (by simpa using noBlank)]
    exact List.cons_ne_nil _ _
  refine ⟨word, filled, isWord, ?_⟩
  rw [← isLeft, ← whole]
  rcases left with _ | ⟨d, left⟩
  · exact .inl ⟨rfl, List.append_nil word⟩
  · have blank : d = ' ' := by
      have stops := List.head?_dropWhile_not (fun c : Char => c != ' ') (c :: rest)
      rw [← isLeft] at stops
      simpa using stops
    subst blank
    have kept : PlainFrom (' ' :: left) := (whole ▸ plain).append_right
    obtain ⟨more, isMore⟩ : ∃ more, more = left.dropWhile (· == ' ') := ⟨_, rfl⟩
    have blanks : left.takeWhile (· == ' ') = spaces (left.takeWhile (· == ' ')).length :=
      List.eq_replicate_of_mem fun c mem => by
        simpa using List.all_eq_true.mp List.all_takeWhile c mem
    have shape : ' ' :: left = spaces ((left.takeWhile (· == ' ')).length + 1) ++ more := by
      rw [spaces_succ, List.cons_append, ← blanks, isMore, List.takeWhile_append_dropWhile]
    refine .inr ⟨_, more, shape, ?_, by rw [shape]⟩
    rw [shape] at kept
    rcases more with _ | ⟨d, more⟩
    · -- The text does not end in a blank.
      have last := (kept.last ' ' (by
        rw [List.append_nil, spaces, List.getLast?_replicate]
        simp)).2
      exact absurd rfl last
    · refine ⟨d, more, rfl, ?_, ?_⟩
      · have stops := List.head?_dropWhile_not (fun c : Char => c == ' ') left
        rw [← isMore] at stops
        simpa using stops
      · have pair : PlainFrom (' ' :: d :: more) := by
          rw [spaces, List.replicate_succ', List.append_assoc] at kept
          exact kept.append_right
        have comment := pair.comments
        rw [anyNeighbours_cons, Bool.or_eq_false_iff] at comment
        simpa [isBlankOrBreak, isSpaceOrTab] using comment.1

/-! ### Words -/

/-- What a plain scalar ends before within its line: its line end, or the colon of a key. -/
def EndsWord (after : List Char) : Prop :=
  atBlankOrEnd after = true ∨ ∃ rest, after = ':' :: rest ∧ atBlankOrEnd rest = true

theorem readPlainWord_nil {after : List Char} (ends : EndsWord after) (steps : Nat)
    (read : List Char) (mark : Mark) :
    readPlainWord false (steps + 1) read ⟨after, mark⟩ = .ok (read.reverse, ⟨after, mark⟩) := by
  rw [readPlainWord]
  rcases after with _ | ⟨c, after⟩
  · rfl
  · rcases ends with blank | ⟨rest, shape, blank⟩
    · rw [atBlankOrEnd_cons] at blank
      simp only [show (isSpaceOrTab c || isBreak c) = true from blank, if_true]
    · cases shape
      simp [isSpaceOrTab, isBreak, nextLine, lineSeparator, paragraphSeparator, blank]

theorem readPlainWord_eq {text after : List Char} (plain : PlainFrom text)
    (ends : EndsWord after) {steps : Nat} (enough : text.length < steps) (read : List Char)
    (mark : Mark) :
    readPlainWord false steps read ⟨text ++ after, mark⟩ =
      .ok (read.reverse ++ text.takeWhile (· != ' '),
        ⟨text.dropWhile (· != ' ') ++ after, mark.after (text.takeWhile (· != ' '))⟩) := by
  induction text generalizing steps read mark with
  | nil =>
    obtain ⟨steps, rfl⟩ := Nat.exists_eq_add_of_lt enough
    simpa using readPlainWord_nil ends _ read mark
  | cons c text ih =>
    obtain ⟨steps, rfl⟩ : ∃ more, steps = more + 1 := ⟨steps - 1, by simp at enough; omega⟩
    obtain ⟨noBreak, noTab⟩ := plain.oneLine c (List.mem_cons_self ..)
    rw [List.cons_append, readPlainWord]
    by_cases blank : c = ' '
    · subst blank
      simp [isSpaceOrTab]
    · have visible : (isSpaceOrTab c || isBreak c) = false := by
        simp [isSpaceOrTab, blank, noTab, noBreak]
      have goesOn : (c == ':' && atBlankOrEnd (text ++ after)) = false := by
        rcases text with _ | ⟨d, text⟩
        · simp [(plain.last c rfl).1]
        · have pair := plain.colons
          rw [anyNeighbours_cons, Bool.or_eq_false_iff] at pair
          exact pair.1
      have next := ih plain.tail (Nat.lt_of_succ_lt_succ enough) (c :: read) (mark.after [c])
      simp only [visible, goesOn, Bool.false_and, Bool.or_self, Bool.false_eq_true, if_false,
        Cursor.skip_cons, next]
      simp [blank]

/-! ### Scalars -/

/-- How a plain scalar ends, from its last word on: before a colon or the end of the text, or at
the end of a line after which nothing is indented enough to go on with it. The flag tells that
its line has ended. -/
inductive EndsPlain (indent : Int) : Cursor → Bool → Cursor → Prop
  | here {after : List Char} (mark : Mark) (ends : EndsWord after)
      (stays : (after.isEmpty || !atBlankOrEnd after) = true) :
      EndsPlain indent ⟨after, mark⟩ false ⟨after, mark⟩
  | line {n : Nat} {rest : List Char} (mark : Mark) (left : (n : Int) < indent)
      (atWord : AtWord rest) :
      EndsPlain indent ⟨'\n' :: (spaces n ++ rest), mark⟩ true
        ⟨rest, (mark.afterBreaks ['\n']).after (spaces n)⟩

theorem EndsPlain.endsWord {indent : Int} {after : List Char} {mark : Mark} {broken : Bool}
    {next : Cursor} (ends : EndsPlain indent ⟨after, mark⟩ broken next) : EndsWord after := by
  cases ends with
  | here _ ends => exact ends
  | line => exact .inl rfl

/-- The last word is read with what ends the scalar. -/
theorem readPlainFrom_word {word after : List Char} {indent : Int} (start : Mark) {mark : Mark}
    {broken : Bool} {next : Cursor} (plain : PlainFrom word)
    (one : word.dropWhile (· != ' ') = []) (starts : StartsWord word)
    (unmarked : mark.column ≠ 0 ∨ Cursor.Unmarked (word ++ after))
    (ends : EndsPlain indent ⟨after, mark.after word⟩ broken next) (steps : Nat)
    (scalar : PlainScalar) :
    ∃ gap : Gap, gap.broken = broken ∧
      readPlainFrom false indent start (steps + 1) scalar ⟨word ++ after, mark⟩ =
        .ok ({ text := word.reverse ++ scalar.gap.folded.reverse ++ scalar.text
               stop := mark.after word, gap }, next) := by
  obtain ⟨c, letters, rfl, noBlank, noHash⟩ := starts
  have whole : (c :: letters).takeWhile (· != ' ') = c :: letters := by
    have parts := List.takeWhile_append_dropWhile (p := (· != ' ')) (l := c :: letters)
    rwa [one, List.append_nil] at parts
  have read := readPlainWord_eq plain ends.endsWord
    (show (c :: letters).length < ((c :: letters) ++ after).length + 1 by
      rw [List.length_append]; omega) [] mark
  rw [whole, one, List.nil_append, List.reverse_nil, List.nil_append] at read
  have visible : ((c :: letters) ++ after).head? ≠ some '#' := by simpa using noHash
  rw [readPlainFrom]
  simp only [Cursor.not_atDocumentMarker unmarked, visible, beq_iff_eq, if_false,
    Bool.false_or, read, List.isEmpty_cons, Bool.false_eq_true]
  cases ends with
  | here _ _ stays => exact ⟨{}, rfl, by simp [stays]⟩
  | @line n rest _ left atWord =>
    have gap := Gap.read_breaks indent.toNat (.inl rfl) (fun _ mem => nomatch mem : ∀ d ∈ [], _) n
      atWord (mark.after (c :: letters))
    have column : ((mark.after (c :: letters)).afterBreaks ['\n']).column = 0 := rfl
    refine ⟨{ broken := true, first := ['\n'] }, rfl, ?_⟩
    simp only [List.singleton_append] at gap
    simp [atBlankOrEnd, isSpaceOrTab, isBreak, gap, column, left]

/-- A plain scalar is read word by word, with the blanks between the words. -/
theorem readPlainFrom_eq {text after : List Char} {indent : Int} (start : Mark) {mark : Mark}
    {broken : Bool} {next : Cursor} (plain : PlainFrom text) (starts : StartsWord text)
    (unmarked : mark.column ≠ 0 ∨ Cursor.Unmarked (text ++ after))
    (inside : indent ≤ mark.column + 1)
    (ends : EndsPlain indent ⟨after, mark.after text⟩ broken next) {steps : Nat}
    (enough : text.length < steps) (scalar : PlainScalar) :
    ∃ gap : Gap, gap.broken = broken ∧
      readPlainFrom false indent start steps scalar ⟨text ++ after, mark⟩ =
        .ok ({ text := text.reverse ++ scalar.gap.folded.reverse ++ scalar.text
               stop := mark.after text, gap }, next) := by
  induction steps generalizing text mark scalar with
  | zero => exact absurd enough (Nat.not_lt_zero _)
  | succ steps ih =>
    obtain ⟨word, filled, isWord, ⟨left, whole⟩ | ⟨n, more, left, another, whole⟩⟩ :=
      plain.exists_word starts
    · exact readPlainFrom_word start plain left starts unmarked ends steps scalar
    · have read := readPlainWord_eq plain ends.endsWord
        (show text.length < (text ++ after).length + 1 by
          rw [List.length_append]; omega) [] mark
      rw [← isWord, left, List.reverse_nil, List.nil_append] at read
      have ⟨c, rest, shape, noBlank, _⟩ := another
      obtain ⟨noBreak, noTab⟩ := plain.oneLine c (by rw [whole, shape]; simp)
      have atWord : AtWord (more ++ after) := by
        rw [shape, List.cons_append, atWord_cons]
        simp [isBlankOrBreak, isSpaceOrTab, noBlank, noTab, noBreak]
      have gap := Gap.read_spaces indent.toNat (n + 1) atWord (mark.after word)
      have column : ¬((mark.after word).after (spaces (n + 1))).column < indent := by
        have length := List.length_pos_iff.mpr filled
        simp only [Mark.column_after, length_spaces]
        omega
      obtain ⟨last, flag, later⟩ := ih (whole ▸ plain).append_right.append_right another
        (.inl (show ((mark.after word).after (spaces (n + 1))).column ≠ 0 by simp)) (by
          simp only [Mark.column_after, length_spaces]
          omega) (by simpa [whole] using ends) (by
          have length := congrArg List.length whole
          simp only [List.length_append, length_spaces] at length
          omega)
        { text := word.reverse ++ scalar.gap.folded.reverse ++ scalar.text
          stop := mark.after word, gap := { blanks := spaces (n + 1) } }
      refine ⟨last, flag, ?_⟩
      have visible : (text ++ after).head? ≠ some '#' := by
        obtain ⟨d, letters, rfl, -, noHash⟩ := starts
        simpa using noHash
      have blank : atBlankOrEnd (spaces (n + 1) ++ more ++ after) = true := rfl
      have notEnd : (spaces (n + 1) ++ more ++ after).isEmpty = false := rfl
      have notEmpty : word.isEmpty = false := by simpa using filled
      rw [readPlainFrom]
      simp only [Cursor.not_atDocumentMarker unmarked, visible, beq_iff_eq, if_false, read,
        Bool.false_or, Bool.false_eq_true, notEnd, blank, notEmpty, Bool.not_true]
      simp only [List.append_assoc] at later ⊢
      simp only [gap, Bool.not_false, Bool.true_and, decide_eq_true_eq, column, if_false, later]
      have folded : ({ blanks := spaces (n + 1) } : Gap).folded = spaces (n + 1) := rfl
      rw [folded]
      simp [whole, spaces]

/-- A plain scalar in a block is read up to its end. -/
theorem readPlain_eq {text after : List Char} {indent : Int} {mark : Mark} {broken : Bool}
    {next : Cursor} (plain : PlainFrom text) (starts : StartsWord text)
    (unmarked : mark.column ≠ 0 ∨ Cursor.Unmarked (text ++ after))
    (inside : indent ≤ mark.column)
    (ends : EndsPlain (indent + 1) ⟨after, mark.after text⟩ broken next) :
    readPlain false indent ⟨text ++ after, mark⟩ =
      .ok (⟨.scalar text .plain, mark, mark.after text⟩, next, broken) := by
  obtain ⟨gap, rfl, read⟩ := readPlainFrom_eq mark plain starts unmarked
    (by omega : indent + 1 ≤ mark.column + 1) ends
    (show text.length < (text ++ after).length + 1 by
      rw [List.length_append]; omega) { stop := mark }
  rw [readPlain, read]
  simp [Except.map, Gap.folded]

end CiTranslate.Yaml

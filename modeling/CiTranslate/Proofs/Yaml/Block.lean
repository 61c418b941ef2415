import CiTranslate.Proofs.Yaml.Quoted
import CiTranslate.Yaml.Token.Block

/-!
Literal blocks are read up to the line that is indented less.

The lines of a block are all indented alike, apart from empty ones, which are not indented at all.
A line is read with the breaks after it (`readBlockLines_eq`), and the mark in the header says which
of the last breaks belong to the text.
-/

namespace CiTranslate.Yaml

/-! ### Empty lines -/

/-- Where the reader of empty lines stops: left of the block, or at a line of it. -/
def EndsEmptyLines (indent n : Nat) (rest : List Char) : Prop :=
  n < indent ∧ AtWord rest ∨ n = indent ∧ ∀ c ∈ rest.head?, isBreak c = false

theorem takeWhile_take_spaces {indent n : Nat} {rest : List Char}
    (ends : EndsEmptyLines indent n rest) :
    ((spaces n ++ rest).take indent).takeWhile (· == ' ') = spaces n := by
  have blanks : ∀ c ∈ spaces n, (c == ' ') = true := fun c mem => by
    rw [eq_of_mem_spaces mem]
    rfl
  have room : indent = (spaces n).length + (indent - n) := by
    rw [length_spaces]
    rcases ends with ⟨left, -⟩ | ⟨rfl, -⟩ <;> omega
  have stops : ∀ c ∈ (rest.take (indent - n)).head?, (c == ' ') = false := by
    intro c mem
    rcases ends with ⟨-, atWord⟩ | ⟨rfl, -⟩
    · rw [List.head?_take] at mem
      split at mem
      · cases mem
      · have visible := atWord c mem
        refine beq_eq_false_iff_ne.mpr ?_
        rintro rfl
        exact absurd visible (by decide)
    · simp at mem
  rw [room, List.take_length_add_append, takeWhile_run blanks stops]

theorem readEmptyLines_eq {indent n : Nat} (positive : 0 < indent) (start : Mark)
    {breaks rest : List Char} (kept : ∀ c ∈ breaks, KeptBreak c)
    (ends : EndsEmptyLines indent n rest) {steps : Nat} (enough : breaks.length < steps)
    (widest : Nat) (read : List Char) (stop : Mark) {mark : Mark} (column : mark.column = 0) :
    ∃ widest' stop', readEmptyLines indent start steps widest read stop
        ⟨breaks ++ (spaces n ++ rest), mark⟩ =
      .ok (widest', read ++ breaks, stop', ⟨rest, (mark.afterBreaks breaks).after (spaces n)⟩) := by
  have known : indent ≠ 0 := Nat.pos_iff_ne_zero.mp positive
  induction breaks generalizing steps widest read stop mark with
  | nil =>
    obtain ⟨steps, rfl⟩ := Nat.exists_eq_add_of_lt enough
    have passed := Cursor.skipMany_append (spaces n) rest mark
    have noTab : ¬((mark.after (spaces n)).column < indent ∧ rest.head? = some '\t') := by
      rintro ⟨left, tab⟩
      rcases ends with ⟨-, atWord⟩ | ⟨rfl, -⟩
      · exact absurd (atWord '\t' tab) (by decide)
      · simp [column] at left
    have stops : rest = [] ∨ atBreakOrEnd rest = false := by
      cases rest with
      | nil => exact .inl rfl
      | cons c rest =>
        rcases ends with ⟨-, atWord⟩ | ⟨-, noBreak⟩
        · exact .inr (not_isBlankOrBreak (atWord_cons.mp atWord)).2
        · exact .inr (noBreak c rfl)
    refine ⟨max widest (mark.after (spaces n)).column, stop, ?_⟩
    rw [List.nil_append, List.length_nil, Nat.zero_add, readEmptyLines]
    simp only [known, if_false, column, Nat.sub_zero, takeWhile_take_spaces ends, passed]
    simpa [stops] using fun left tab => noTab ⟨left, tab⟩
  | cons c breaks ih =>
    obtain ⟨steps, rfl⟩ : ∃ more, steps = more + 1 := ⟨steps - 1, by simp at enough; omega⟩
    have first := kept c (List.mem_cons_self ..)
    have visible : c ≠ ' ' ∧ c ≠ '\t' := by rcases first with rfl | rfl | rfl <;> decide
    have none : ((c :: breaks ++ (spaces n ++ rest)).take indent).takeWhile (· == ' ') = [] := by
      obtain ⟨more, rfl⟩ : ∃ more, indent = more + 1 := ⟨indent - 1, by omega⟩
      rw [List.cons_append, List.take_succ_cons,
        List.takeWhile_cons_of_neg (by simpa using visible.1)]
    have here : (⟨c :: breaks ++ (spaces n ++ rest), mark⟩ : Cursor).skipMany 0 =
        ⟨c :: breaks ++ (spaces n ++ rest), mark⟩ := Cursor.skipMany_append [] _ mark
    obtain ⟨widest', stop', later⟩ := ih (fun d mem => kept d (List.mem_cons_of_mem _ mem))
      (Nat.lt_of_succ_lt_succ enough) (max widest 0) (read ++ [c]) (mark.afterBreaks [c])
      (show (mark.afterBreaks [c]).column = 0 from rfl)
    refine ⟨widest', stop', ?_⟩
    rw [readEmptyLines]
    simp only [known, if_false, column, Nat.sub_zero, none, List.length_nil, here]
    simpa [visible.2, atBreakOrEnd, first.isBreak, Cursor.takeBreak_cons first, Mark.afterBreaks]
      using later

theorem readEmptyLines_nil (indent : Nat) (start : Mark) (steps widest : Nat) (read : List Char)
    (stop mark : Mark) :
    readEmptyLines indent start (steps + 1) widest read stop ⟨[], mark⟩ =
      .ok (max widest mark.column, read, stop, ⟨[], mark⟩) := by
  simp [readEmptyLines, Cursor.skipMany]

/-! ### Lines -/

/-- The text that was read of a block, with the line breaks after it. -/
def BlockScalar.all (scalar : BlockScalar) : List Char :=
  scalar.text.reverse ++ scalar.lineBreak ++ scalar.emptyLines

/-- What follows the lines of a block: a line that is indented less, or, where the last line has no
end, nothing. -/
def EndsBlock (indent n : Nat) (text rest : List Char) : Prop :=
  n < indent ∧ AtWord rest ∧ (text.getLast?.any isBreak = true ∨ n = 0 ∧ rest = [])

/-- What is read of a text from a line on: all but the line breaks at the end is text, and these
are apart. -/
def BlockScalar.Holds (scalar : BlockScalar) (before text : List Char) : Prop :=
  ∃ body breaks, text = body ++ breaks ∧ body ≠ [] ∧ (∀ c ∈ body.getLast?, isBreak c = false) ∧
    (∀ c ∈ breaks, isBreak c = true) ∧ scalar.text.reverse = before ++ body ∧
    scalar.lineBreak = breaks.take 1 ∧ scalar.emptyLines = breaks.drop 1

theorem joint_literal (scalar : BlockScalar) (indented : Bool) :
    scalar.joint true indented = scalar.lineBreak ++ scalar.emptyLines := by
  simp [BlockScalar.joint]

/-- Nothing is read left of the block, or at the end of the text. -/
theorem readBlockLines_stop {indent : Nat} {start mark : Mark} {rest : List Char}
    (stops : mark.column ≠ indent ∨ rest = []) (steps : Nat) (scalar : BlockScalar) :
    readBlockLines true indent start steps scalar ⟨rest, mark⟩ = .ok (scalar, ⟨rest, mark⟩) := by
  cases steps with
  | zero => rfl
  | succ steps => simp [readBlockLines, stops]

/-- A line is read with its break and the empty lines after it. -/
theorem readBlockLines_line {indent n : Nat} (positive : 0 < indent) (start : Mark)
    {line : List Char} (filled : line ≠ []) (oneLine : ∀ c ∈ line, isBreak c = false) {c : Char}
    {breaks rest : List Char} (kept : ∀ d ∈ c :: breaks, KeptBreak d)
    (ends : EndsEmptyLines indent n rest) (steps : Nat) (scalar : BlockScalar) {mark : Mark}
    (column : mark.column = indent) :
    ∃ next : BlockScalar, next.text.reverse = scalar.all ++ line ∧ next.lineBreak = [c] ∧
      next.emptyLines = breaks ∧
      readBlockLines true indent start (steps + 1) scalar
          ⟨line ++ (c :: breaks ++ (spaces n ++ rest)), mark⟩ =
        readBlockLines true indent start steps next
          ⟨rest, ((mark.after line).afterBreaks (c :: breaks)).after (spaces n)⟩ := by
  have first := kept c (List.mem_cons_self ..)
  have taken := Cursor.takeWhile_append
    (show ∀ d ∈ line, (!isBreak d) = true from fun d mem => by simp [oneLine d mem])
    (show ∀ d ∈ (c :: breaks ++ (spaces n ++ rest)).head?, (!isBreak d) = false by
      simp [first.isBreak]) mark
  obtain ⟨widest, stop, empty⟩ := readEmptyLines_eq positive start
    (fun d mem => kept d (List.mem_cons_of_mem _ mem)) ends
    (show breaks.length < (breaks ++ (spaces n ++ rest)).length + 1 by
      rw [List.length_append]; omega) 0 []
    ((mark.after line).afterBreaks [c])
    (show ((mark.after line).afterBreaks [c]).column = 0 from rfl)
  have inside : (line ++ (c :: breaks ++ (spaces n ++ rest))).isEmpty = false := by
    simp [filled]
  rw [List.cons_append] at taken inside ⊢
  refine ⟨{ text := line.reverse ++ (scalar.lineBreak ++ scalar.emptyLines).reverse ++ scalar.text
            indented := (line ++ c :: (breaks ++ (spaces n ++ rest))).head?.any isSpaceOrTab
            lineBreak := [c], emptyLines := breaks, stop }, ?_, rfl, rfl, ?_⟩
  · simp [BlockScalar.all]
  · rw [readBlockLines]
    simp only [column, bne_self_eq_false, inside, Bool.or_self, Bool.false_eq_true, if_false, taken,
      Cursor.takeBreak_cons first, empty, joint_literal, List.nil_append]
    rfl

/-- The last line of a text need not have an end. -/
theorem readBlockLines_last {indent : Nat} (start : Mark) {line : List Char} (filled : line ≠ [])
    (oneLine : ∀ c ∈ line, isBreak c = false) (steps : Nat) (scalar : BlockScalar) {mark : Mark}
    (column : mark.column = indent) :
    ∃ last : BlockScalar, last.text.reverse = scalar.all ++ line ∧ last.lineBreak = [] ∧
      last.emptyLines = [] ∧
      readBlockLines true indent start (steps + 1) scalar ⟨line, mark⟩ =
        .ok (last, ⟨[], mark.after line⟩) := by
  have taken := Cursor.takeWhile_append
    (show ∀ d ∈ line, (!isBreak d) = true from fun d mem => by simp [oneLine d mem])
    (show ∀ d ∈ ([] : List Char).head?, (!isBreak d) = false from fun _ mem => nomatch mem) mark
  rw [List.append_nil] at taken
  have inside : line.isEmpty = false := by simpa using filled
  refine ⟨{ text := line.reverse ++ (scalar.lineBreak ++ scalar.emptyLines).reverse ++ scalar.text
            indented := line.head?.any isSpaceOrTab, stop := mark.after line }, ?_, rfl, rfl, ?_⟩
  · simp [BlockScalar.all]
  · rw [readBlockLines]
    have noBreak : (⟨[], mark.after line⟩ : Cursor).takeBreak = ([], ⟨[], mark.after line⟩) := rfl
    simp only [column, bne_self_eq_false, inside, Bool.or_self, Bool.false_eq_true, if_false, taken,
      joint_literal, noBreak, List.length_nil, readEmptyLines_nil]
    exact readBlockLines_stop (.inr rfl) steps _

/-- Lines are read up to the end of the block, and the breaks after the last one. -/
theorem readBlockLines_eq {indent n : Nat} (positive : 0 < indent) (start : Mark)
    {text rest : List Char} (filled : text ≠ [])
    (kept : ∀ c ∈ text, isBreak c = true → KeptBreak c)
    (starts : ∀ c ∈ text.head?, isBreak c = false) (ends : EndsBlock indent n text rest)
    {steps : Nat} (enough : text.length < steps) (scalar : BlockScalar) {mark : Mark}
    (column : mark.column = indent) :
    ∃ (last : BlockScalar) (next : Mark), last.Holds scalar.all text ∧
      (text.getLast?.any isBreak = true → mark.line < next.line ∧ next.column = n) ∧
      readBlockLines true indent start steps scalar
          ⟨indentBreaks indent false text ++ (spaces n ++ rest), mark⟩ =
        .ok (last, ⟨rest, next⟩) := by
  obtain ⟨outside, atWord, whole⟩ := ends
  induction steps generalizing text scalar mark with
  | zero => exact absurd enough (Nat.not_lt_zero _)
  | succ steps ih =>
    obtain ⟨line, left, rfl, inside, stop⟩ := exists_run (fun c => !isBreak c) text
    have oneLine : ∀ c ∈ line, isBreak c = false := fun c mem => by simpa using inside c mem
    have lineFilled : line ≠ [] := by
      rintro rfl
      rcases left with _ | ⟨c, left⟩
      · exact filled rfl
      · have noBreak := starts c rfl
        have isBreak := stop c rfl
        simp [noBreak] at isBreak
    have lastOf : ∀ c ∈ line.getLast?, isBreak c = false := fun c mem =>
      oneLine c (List.mem_of_getLast? mem)
    obtain ⟨breaks, more, rfl, all, another⟩ := exists_run isBreak left
    rcases breaks with _ | ⟨c, breaks⟩
    · -- Nothing follows a line without an end.
      have last : more = [] := by
        rcases more with _ | ⟨d, more⟩
        · rfl
        · have isBreak := stop d rfl
          simp [another d rfl] at isBreak
      subst last
      simp only [List.append_nil] at whole ⊢
      have noEnd : ¬line.getLast?.any isBreak = true := by
        cases final : line.getLast? with
        | none => simp
        | some d => simp [lastOf d final]
      obtain ⟨rfl, rfl⟩ := whole.resolve_left noEnd
      obtain ⟨last, text', lineBreak', empty', read⟩ :=
        readBlockLines_last start lineFilled oneLine steps scalar column
      have written : indentBreaks indent false line = line := by
        have word := indentBreaks_word indent false lineFilled oneLine []
        simpa [indentBreaks] using word
      refine ⟨last, mark.after line,
        ⟨line, [], (List.append_nil line).symm, lineFilled, lastOf, all, text', lineBreak', empty'⟩,
        fun final => absurd final noEnd, ?_⟩
      rw [written, spaces_zero, List.append_nil, List.append_nil]
      exact read
    · have keptHere : ∀ d ∈ c :: breaks, KeptBreak d := fun d mem =>
        kept d (List.mem_append_right _ (List.mem_append_left _ mem)) (all d mem)
      have written : indentBreaks indent false (line ++ (c :: breaks ++ more)) =
          line ++ (c :: breaks ++ indentBreaks indent true more) := by
        rw [indentBreaks_word indent false lineFilled oneLine,
          indentBreaks_breaks indent false (List.cons_ne_nil _ _) all]
        rfl
      rcases more with _ | ⟨d, more⟩
      · obtain ⟨last, text', lineBreak', empty', read⟩ := readBlockLines_line positive start
          lineFilled oneLine keptHere (.inl ⟨outside, atWord⟩) steps scalar column
        refine ⟨last, ((mark.after line).afterBreaks (c :: breaks)).after (spaces n),
          ⟨line, c :: breaks, by simp, lineFilled, lastOf, all, text', lineBreak', empty'⟩,
          fun _ => ?_, ?_⟩
        · simp [Mark.column_afterBreaks]
        · rw [written]
          simp only [indentBreaks, List.append_nil, List.append_assoc] at read ⊢
          rw [read]
          refine readBlockLines_stop (.inl ?_) steps last
          simp [Mark.column_afterBreaks]
          omega
      · have noBreak : ∀ e ∈ [d], isBreak e = false := by simpa using another
        have shape : indentBreaks indent true (d :: more) =
            spaces indent ++ indentBreaks indent false (d :: more) := by
          rw [← List.singleton_append, indentBreaks_word indent true (List.cons_ne_nil _ _) noBreak,
            indentBreaks_word indent false (List.cons_ne_nil _ _) noBreak]
          rfl
        have atLine : EndsEmptyLines indent indent
            (indentBreaks indent false (d :: more) ++ (spaces n ++ rest)) := by
          refine .inr ⟨rfl, ?_⟩
          rw [← List.singleton_append,
            indentBreaks_word indent false (List.cons_ne_nil _ _) noBreak]
          simpa using noBreak
        obtain ⟨next, text', lineBreak', empty', read⟩ := readBlockLines_line positive start
          lineFilled oneLine keptHere atLine steps scalar column
        have final : (line ++ (c :: breaks ++ d :: more)).getLast? = (d :: more).getLast? := by
          rw [List.getLast?_append, List.getLast?_append, List.getLast?_cons]
          rfl
        rw [final] at whole ⊢
        obtain ⟨last, stop',
            ⟨body, tail, parts, bodyFilled, bodyLast, allBreaks, text'', lineBreak'', empty''⟩,
            after, read'⟩ := ih (List.cons_ne_nil d more)
          (fun e mem => kept e (List.mem_append_right _ (List.mem_append_right _ mem)))
          (by simpa using another) (by
            simp only [List.length_append, List.length_cons] at enough ⊢
            omega) next (show (((mark.after line).afterBreaks (c :: breaks)).after
              (spaces indent)).column = indent by simp [Mark.column_afterBreaks]) whole
        refine ⟨last, stop', ⟨line ++ (c :: breaks ++ body), tail, ?_, ?_, ?_, allBreaks, ?_,
          lineBreak'', empty''⟩, ?_, ?_⟩
        · rw [parts]
          simp
        · simp [lineFilled]
        · intro e mem
          obtain ⟨start, f, rfl⟩ := (List.eq_nil_or_concat body).resolve_left bodyFilled
          refine bodyLast e ?_
          rw [List.concat_eq_append, ← List.append_assoc, ← List.append_assoc,
            List.getLast?_append] at mem
          simpa using mem
        · rw [text'', BlockScalar.all, text', lineBreak', empty']
          simp [BlockScalar.all]
        · intro ended
          obtain ⟨later, column'⟩ := after ended
          refine ⟨Nat.lt_of_le_of_lt ?_ later, column'⟩
          simp
        · rw [written, shape]
          simp only [List.append_assoc] at read read' ⊢
          rw [read, read']

/-! ### Headers -/

/-- What the mark in the header asks for. -/
def chompingOf (text : List Char) : Chomping :=
  match text.reverse with
  | [] => .strip
  | [c] => if isBreak c then .keep else .strip
  | c :: d :: _ => if !isBreak c then .strip else if isBreak d then .keep else .clip

def Chomping.sign : Chomping → List Char
  | .strip => ['-']
  | .clip => []
  | .keep => ['+']

theorem chompMark_eq (text : List Char) : chompMark text = (chompingOf text).sign := by
  unfold chompMark chompingOf
  rcases text.reverse with _ | ⟨c, _ | ⟨d, more⟩⟩
  · rfl
  · by_cases last : isBreak c <;> simp [last, Chomping.sign]
  · by_cases last : isBreak c <;> by_cases before : isBreak d <;> simp [last, before, Chomping.sign]

theorem readHeader_eq (hides : Bool) (chomping : Chomping) (start mark : Mark) (rest : List Char) :
    ∃ next, readHeader start
        ⟨(if hides then ['2'] else []) ++ (chomping.sign ++ '\n' :: rest), mark⟩ =
      .ok ({ chomping, increment := if hides then some 2 else none }, ⟨'\n' :: rest, next⟩) := by
  cases hides <;> cases chomping <;>
    exact ⟨_, by simp [readHeader, readIncrement, chomping?, Chomping.sign, Except.map]; rfl⟩

theorem chompingOf_append {body breaks : List Char} (filled : body ≠ [])
    (last : ∀ c ∈ body.getLast?, isBreak c = false) (all : ∀ c ∈ breaks, isBreak c = true) :
    chompingOf (body ++ breaks) =
      if breaks.length = 0 then .strip else if breaks.length = 1 then .clip else .keep := by
  obtain ⟨start, c, rfl⟩ := (List.eq_nil_or_concat body).resolve_left filled
  have noBreak : isBreak c = false := last c (by simp)
  rcases List.eq_nil_or_concat breaks with rfl | ⟨more, d, rfl⟩
  · rw [chompingOf, List.append_nil, List.concat_eq_append, List.reverse_append]
    cases start.reverse <;> simp [noBreak]
  · have lineEnd : isBreak d = true := all d (by simp)
    rcases List.eq_nil_or_concat more with rfl | ⟨more, e, rfl⟩
    · simp [chompingOf, lineEnd, noBreak]
    · have another : isBreak e = true := all e (by simp)
      simp [chompingOf, lineEnd, another]

/-- The lines with as many breaks after them as the header keeps are the text. -/
theorem BlockScalar.Holds.chomped_eq {scalar : BlockScalar} {before text : List Char}
    (holds : scalar.Holds before text) : scalar.chomped (chompingOf text) = before ++ text := by
  obtain ⟨body, breaks, rfl, filled, last, all, text', lineBreak', emptyLines'⟩ := holds
  rw [chompingOf_append filled last all]
  rcases breaks with _ | ⟨d, _ | ⟨e, breaks⟩⟩ <;>
    simp [BlockScalar.chomped, text', lineBreak', emptyLines']

/-! ### Whole blocks -/

/-- While the indentation is not known, the blanks before the first line show it. -/
theorem readEmptyLines_unknown {n : Nat} {rest : List Char}
    (starts : ∀ c ∈ rest.head?, c ≠ ' ' ∧ c ≠ '\t' ∧ isBreak c = false) (start : Mark)
    (steps widest : Nat) (read : List Char) (stop mark : Mark) :
    readEmptyLines 0 start (steps + 1) widest read stop ⟨spaces n ++ rest, mark⟩ =
      .ok (max widest (mark.column + n), read, stop, ⟨rest, mark.after (spaces n)⟩) := by
  have taken : (spaces n ++ rest).takeWhile (· == ' ') = spaces n :=
    takeWhile_run (fun c mem => by simp [eq_of_mem_spaces mem]) fun c mem => by
      simpa using (starts c mem).1
  have noTab : rest.head? ≠ some '\t' := fun tab => (starts '\t' tab).2.1 rfl
  have stops : rest = [] ∨ atBreakOrEnd rest = false := by
    cases rest with
    | nil => exact .inl rfl
    | cons c rest => exact .inr (starts c rfl).2.2
  have passed := Cursor.skipMany_append (spaces n) rest mark
  rw [readEmptyLines]
  simp only [if_true, List.take_length, taken, passed]
  simp [noTab, stops]

/-- What is read of a text that may be line breaks only. -/
def BlockScalar.HoldsAll (scalar : BlockScalar) (text : List Char) : Prop :=
  scalar.Holds [] text ∨
    (∀ c ∈ text, isBreak c = true) ∧ scalar.text = [] ∧ scalar.lineBreak = [] ∧
      scalar.emptyLines = text

theorem BlockScalar.Holds.holdsAll {scalar : BlockScalar} {before text : List Char}
    (holds : scalar.Holds before text) : scalar.HoldsAll (before ++ text) := by
  obtain ⟨body, breaks, rfl, filled, last, all, text', rest⟩ := holds
  refine .inl ⟨before ++ body, breaks, (List.append_assoc ..).symm, by simp [filled], ?_, all,
    by simpa using text', rest⟩
  obtain ⟨start, c, rfl⟩ := (List.eq_nil_or_concat body).resolve_left filled
  intro d mem
  refine last d ?_
  rw [List.concat_eq_append, ← List.append_assoc] at mem
  simpa using mem

/-- Past the header, a block is its empty lines and the lines from there on. -/
theorem readBlock_body (top : Nat) (hides : Bool) (chomping : Chomping) (body : List Char)
    (mark : Mark) :
    ∃ first : Mark, first.column = 0 ∧
      ∀ {widest : Nat} {breaks : List Char} {stop : Mark} {cursor : Cursor} {scalar : BlockScalar}
        {after : Cursor},
      readEmptyLines (if hides then top + 2 else 0) mark (body.length + 1) 0 [] first
          ⟨body, first⟩ = .ok (widest, breaks, stop, cursor) →
      (hides = false → max widest (top + 1) = top + 2) →
      readBlockLines true (top + 2) mark (cursor.rest.length + 1) { emptyLines := breaks, stop }
          cursor = .ok (scalar, after) →
      readBlock true top
          ⟨'|' :: ((if hides then ['2'] else []) ++ (chomping.sign ++ '\n' :: body)), mark⟩ =
        .ok (⟨.scalar (scalar.chomped chomping) .block, mark, scalar.stop⟩, after) := by
  obtain ⟨next, header⟩ := readHeader_eq hides chomping mark (mark.after ['|']) body
  refine ⟨next.afterBreaks ['\n'], rfl,
    fun {widest breaks stop cursor scalar after} empty width lines => ?_⟩
  have passed :
      (⟨'\n' :: body, next⟩ : Cursor).skipBlanksAndComment = ⟨'\n' :: body, next⟩ := by
    rw [Cursor.skipBlanksAndComment, Cursor.skipWhile_of_stop (by simp [isSpaceOrTab])]
    rfl
  have noBreak : (!atBreakOrEnd ('\n' :: body)) = false := rfl
  rw [readBlock]
  simp only [Cursor.skip_cons, header, passed, noBreak, Bool.false_eq_true, if_false,
    Cursor.skipBreak_cons (.inl rfl)]
  cases hides with
  | false =>
    have indent : max (max widest ((top : Int) + 1).toNat) 1 = top + 2 := by
      have wide := width rfl
      omega
    simp only [Bool.false_eq_true, if_false] at empty ⊢
    simp only [empty, if_true, indent, lines]
  | true =>
    have known : (max (top : Int) 0).toNat + 2 = top + 2 := by omega
    have inside : top + 2 ≠ 0 := Nat.succ_ne_zero _
    simp only [if_true] at empty ⊢
    simp only [known, empty, inside, if_false, lines]

theorem BlockScalar.HoldsAll.chomped_eq {scalar : BlockScalar} {text : List Char}
    (holds : scalar.HoldsAll text) (filled : text ≠ []) :
    scalar.chomped (chompingOf text) = text := by
  rcases holds with holds | ⟨all, text', lineBreak', emptyLines'⟩
  · exact holds.chomped_eq
  · have keep : chompingOf text = .keep := by
      obtain ⟨start, c, rfl⟩ := (List.eq_nil_or_concat text).resolve_left filled
      have last := all c (by simp)
      rcases List.eq_nil_or_concat start with rfl | ⟨start, d, rfl⟩
      · simp [chompingOf, last]
      · simp [chompingOf, last, all d (by simp)]
    rw [keep, BlockScalar.chomped, text', lineBreak', emptyLines']
    rfl

/-- Where the text has no end, the line end that is written after it is not kept. -/
theorem BlockScalar.HoldsAll.strip_eq {scalar : BlockScalar} {text : List Char}
    (filled : text ≠ []) (last : ∀ c ∈ text.getLast?, isBreak c = false)
    (holds : scalar.HoldsAll (text ++ ['\n'])) : scalar.chomped .strip = text := by
  obtain ⟨start, c, rfl⟩ := (List.eq_nil_or_concat text).resolve_left filled
  have noBreak : isBreak c = false := last c (by simp)
  rcases holds with ⟨body, breaks, whole, -, bodyLast, all, text', -⟩ | ⟨all, -⟩
  · rw [BlockScalar.chomped, text', List.nil_append]
    rcases List.eq_nil_or_concat breaks with rfl | ⟨more, d, rfl⟩
    · have lineEnd := bodyLast '\n' (by rw [List.append_nil] at whole; simp [← whole])
      cases lineEnd
    · rw [List.concat_eq_append, List.concat_eq_append, ← List.append_assoc body] at whole
      have parts := (List.append_inj' whole rfl).1
      rcases List.eq_nil_or_concat more with rfl | ⟨more, e, rfl⟩
      · simpa using parts.symm
      · have same : c = e := by
          have ends := congrArg List.getLast? parts
          simpa using ends
        rw [same, all e (by simp)] at noBreak
        cases noBreak
  · rw [all c (by simp)] at noBreak
    cases noBreak

theorem readBlock_lines {top n : Nat} {lines rest : List Char} (hides : Bool)
    (chomping : Chomping) (kept : ∀ c ∈ lines, isBreak c = true → KeptBreak c)
    (shown : hides = false → ∃ c more, lines = c :: more ∧ c ≠ ' ' ∧ c ≠ '\t' ∧ isBreak c = false)
    (ends : EndsBlock (top + 2) n lines rest) (mark : Mark) :
    ∃ (scalar : BlockScalar) (next : Mark), scalar.HoldsAll lines ∧
      (lines.getLast?.any isBreak = true → next.column = n) ∧
      readBlock true top
          ⟨'|' :: ((if hides then ['2'] else []) ++ (chomping.sign ++
            '\n' :: (indentBreaks (top + 2) true lines ++ (spaces n ++ rest)))), mark⟩ =
        .ok (⟨.scalar (scalar.chomped chomping) .block, mark, scalar.stop⟩, ⟨rest, next⟩) := by
  obtain ⟨first, start, read⟩ := readBlock_body top hides chomping
    (indentBreaks (top + 2) true lines ++ (spaces n ++ rest)) mark
  obtain ⟨breaks, more, rfl, all, another⟩ := exists_run isBreak lines
  obtain ⟨left, atWord, whole⟩ := ends
  have keptHere : ∀ c ∈ breaks, KeptBreak c := fun c mem =>
    kept c (List.mem_append_left _ mem) (all c mem)
  have written : indentBreaks (top + 2) true (breaks ++ more) =
      breaks ++ indentBreaks (top + 2) true more := by
    rcases breaks with _ | ⟨c, breaks⟩
    · rfl
    · exact indentBreaks_breaks _ _ (List.cons_ne_nil _ _) all _
  have size : breaks.length <
      (indentBreaks (top + 2) true (breaks ++ more) ++ (spaces n ++ rest)).length + 1 := by
    have inside := length_le_indentBreaks (top + 2) true (breaks ++ more)
    simp only [List.length_append] at inside ⊢
    omega
  have column : (first.afterBreaks breaks).column = 0 := by
    rcases breaks with _ | ⟨c, breaks⟩
    · exact start
    · exact Mark.column_afterBreaks (List.cons_ne_nil _ _) first
  rcases more with _ | ⟨c, more⟩
  · -- There are empty lines only, and the reader stops before the first other line.
    have hidden : hides = true := by
      cases hidden : hides with
      | true => rfl
      | false =>
        obtain ⟨c, more, shape, -, -, noBreak⟩ := shown hidden
        rw [List.append_nil] at shape
        rw [all c (by rw [shape]; exact List.mem_cons_self ..)] at noBreak
        cases noBreak
    obtain ⟨widest, stop, empty⟩ := readEmptyLines_eq (Nat.succ_pos (top + 1)) mark keptHere
      (.inl ⟨left, atWord⟩) size 0 [] first start
    have outside : ((first.afterBreaks breaks).after (spaces n)).column = n := by simp [column]
    have stays := @readBlockLines_stop (top + 2) mark _ rest (.inl (outside ▸ Nat.ne_of_lt left))
      (rest.length + 1) { emptyLines := breaks, stop }
    rw [written] at empty read ⊢
    simp only [indentBreaks, List.append_nil] at empty read ⊢
    exact ⟨_, _, .inr ⟨all, rfl, rfl, rfl⟩, fun _ => outside, read (by rw [hidden]; exact empty)
      (fun none => by rw [hidden] at none; cases none) stays⟩
  · have noBreak : ∀ d ∈ [c], isBreak d = false := by simpa using another
    have shape : indentBreaks (top + 2) true (c :: more) =
        spaces (top + 2) ++ indentBreaks (top + 2) false (c :: more) := by
      rw [← List.singleton_append, indentBreaks_word _ true (List.cons_ne_nil _ _) noBreak,
        indentBreaks_word _ false (List.cons_ne_nil _ _) noBreak]
      rfl
    have atLine : ∀ d ∈ (indentBreaks (top + 2) false (c :: more) ++ (spaces n ++ rest)).head?,
        d = c := by
      rw [← List.singleton_append, indentBreaks_word _ false (List.cons_ne_nil _ _) noBreak]
      simp
    have ended : (breaks ++ c :: more).getLast? = (c :: more).getLast? := by
      rw [List.getLast?_append, List.getLast?_cons]
      rfl
    rw [written] at size read ⊢
    obtain ⟨widest, stop, empty, width⟩ : ∃ widest stop,
        readEmptyLines (if hides then top + 2 else 0) mark
          ((breaks ++ indentBreaks (top + 2) true (c :: more) ++ (spaces n ++ rest)).length + 1)
          0 [] first ⟨breaks ++ indentBreaks (top + 2) true (c :: more) ++ (spaces n ++ rest), first⟩ =
        .ok (widest, breaks, stop, ⟨indentBreaks (top + 2) false (c :: more) ++ (spaces n ++ rest),
          (first.afterBreaks breaks).after (spaces (top + 2))⟩) ∧
        (hides = false → max widest (top + 1) = top + 2) := by
      rw [shape] at size ⊢
      simp only [List.append_assoc] at size ⊢
      cases hides with
      | true =>
        obtain ⟨widest, stop, empty⟩ := readEmptyLines_eq (Nat.succ_pos (top + 1)) mark keptHere
          (.inr ⟨rfl, fun d mem => atLine d mem ▸ another c rfl⟩) size 0 [] first start
        exact ⟨widest, stop, empty, fun none => absurd none (by decide)⟩
      | false =>
        obtain ⟨d, tail, parts, noSpace, noTab, noBreak'⟩ := shown rfl
        rcases breaks with _ | ⟨e, breaks⟩
        · cases parts
          have visible : ∀ d ∈ (indentBreaks (top + 2) false (c :: more) ++
              (spaces n ++ rest)).head?, d ≠ ' ' ∧ d ≠ '\t' ∧ isBreak d = false := fun d mem =>
            atLine d mem ▸ ⟨noSpace, noTab, noBreak'⟩
          refine ⟨_, _, readEmptyLines_unknown visible _ _ _ _ _ _, fun _ => ?_⟩
          rw [start]
          omega
        · cases parts
          rw [all d (List.mem_cons_self ..)] at noBreak'
          cases noBreak'
    have enough : (c :: more).length <
        (indentBreaks (top + 2) false (c :: more) ++ (spaces n ++ rest)).length + 1 := by
      have inside := length_le_indentBreaks (top + 2) false (c :: more)
      simp only [List.length_append] at inside ⊢
      omega
    obtain ⟨last, next, holds, after, lines⟩ := readBlockLines_eq (Nat.succ_pos (top + 1)) mark
      (List.cons_ne_nil c more) (fun d mem => kept d (List.mem_append_right _ mem)) another
      ⟨left, atWord, ended ▸ whole⟩ enough { emptyLines := breaks, stop }
      (show ((first.afterBreaks breaks).after (spaces (top + 2))).column = top + 2 by simp [column])
    exact ⟨last, next, holds.holdsAll, fun final => (after (ended ▸ final)).2,
      read empty width lines⟩

theorem indentBreaks_append_break (column : Nat) (starts : Bool) (text : List Char) {c : Char}
    (lineEnd : isBreak c = true) :
    indentBreaks column starts (text ++ [c]) = indentBreaks column starts text ++ [c] := by
  induction text generalizing starts with
  | nil => simp [indentBreaks, lineEnd]
  | cons d text ih =>
    rw [List.cons_append, indentBreaks, indentBreaks]
    split <;> simp [ih]

section Literal

variable {top n : Nat} {text rest : List Char}

theorem literal_kept (holds : literalHolds text = true) :
    ∀ c ∈ text, (isBreak c = true → KeptBreak c) ∧ c ≠ '\t' := by
  intro c mem
  have printable : isPrintable c = true := by
    simp only [literalHolds, needsEscapes, Bool.and_eq_true, Bool.not_eq_true',
      Bool.or_eq_false_iff, List.any_eq_false] at holds
    simpa using holds.1.1 c mem
  refine ⟨fun lineEnd => .of_isPrintable lineEnd printable, ?_⟩
  rintro rfl
  cases printable

theorem literal_shown (filled : text ≠ []) (holds : literalHolds text = true)
    (shows : hidesIndent text = false) :
    ∃ c more, text = c :: more ∧ c ≠ ' ' ∧ c ≠ '\t' ∧ isBreak c = false := by
  obtain ⟨c, more, rfl⟩ := List.exists_cons_of_ne_nil filled
  have noTab := (literal_kept holds c (List.mem_cons_self ..)).2
  simp only [hidesIndent, List.head?_cons, Option.any_some, Bool.or_eq_false_iff,
    beq_eq_false_iff_ne] at shows
  exact ⟨c, more, rfl, shows.1, noTab, shows.2⟩

/-- A literal block is read as its text, up to a line that is indented less. -/
theorem readBlock_literal (filled : text ≠ []) (holds : literalHolds text = true) (left : n ≤ top)
    (atWord : AtWord rest) (mark : Mark) :
    ∃ stop next : Mark, next.column = n ∧
      readBlock true top ⟨literalBlock (top + 2) text ++ (spaces n ++ rest), mark⟩ =
        .ok (⟨.scalar text .block, mark, stop⟩, ⟨rest, next⟩) := by
  have outside : n < top + 2 := by omega
  rw [literalBlock, chompMark_eq]
  by_cases ended : text.getLast?.any isBreak = true
  · obtain ⟨scalar, next, all, column, read⟩ := readBlock_lines (hidesIndent text) (chompingOf text)
      (fun c mem => (literal_kept holds c mem).1) (literal_shown filled holds)
      ⟨outside, atWord, .inl ended⟩ mark
    refine ⟨scalar.stop, next, column ended, ?_⟩
    rw [all.chomped_eq filled] at read
    simpa [ended] using read
  · have last : ∀ c ∈ text.getLast?, isBreak c = false := fun c mem => by
      simpa [Option.mem_def.mp mem] using ended
    have strip : chompingOf text = .strip := by
      have alone := chompingOf_append filled last
        (show ∀ c ∈ ([] : List Char), isBreak c = true from fun _ mem => nomatch mem)
      simpa using alone
    have ended' : (text ++ ['\n']).getLast?.any isBreak = true := by simp [isBreak]
    obtain ⟨scalar, next, all, column, read⟩ := readBlock_lines (hidesIndent text) .strip
      (show ∀ c ∈ text ++ ['\n'], isBreak c = true → KeptBreak c by
        intro c mem
        rcases List.mem_append.mp mem with mem | mem
        · exact (literal_kept holds c mem).1
        · exact fun _ => .inl (List.mem_singleton.mp mem)) (by
        intro shows
        obtain ⟨c, more, rfl, visible⟩ := literal_shown filled holds shows
        exact ⟨c, more ++ ['\n'], rfl, visible⟩) ⟨outside, atWord, .inl ended'⟩ mark
    refine ⟨scalar.stop, next, column ended', ?_⟩
    rw [all.strip_eq filled last, indentBreaks_append_break _ _ _ rfl] at read
    rw [strip]
    simpa [ended] using read

/-- A literal block at the end of the text whose line end is left out. -/
theorem readBlock_literal_cut (filled : text ≠ []) (holds : literalHolds text = true)
    (last : ∀ c ∈ text.getLast?, isBreak c = false) (mark : Mark) :
    ∃ stop next : Mark,
      readBlock true top ⟨(literalBlock (top + 2) text).dropLast, mark⟩ =
        .ok (⟨.scalar text .block, mark, stop⟩, ⟨[], next⟩) := by
  have ended : ¬text.getLast?.any isBreak = true := by
    cases final : text.getLast? with
    | none => simp
    | some d => simp [last d final]
  obtain ⟨scalar, next, all, -, read⟩ := readBlock_lines (hidesIndent text) (chompingOf text)
    (fun c mem => (literal_kept holds c mem).1) (literal_shown filled holds)
    (⟨Nat.succ_pos (top + 1), AtWord.nil, .inr ⟨rfl, rfl⟩⟩) mark
  refine ⟨scalar.stop, next, ?_⟩
  rw [all.chomped_eq filled] at read
  have whole : literalBlock (top + 2) text =
      '|' :: ((if hidesIndent text then ['2'] else []) ++ ((chompingOf text).sign ++
        '\n' :: indentBreaks (top + 2) true text)) ++ ['\n'] := by
    simp [literalBlock, chompMark_eq, ended]
  rw [whole, List.dropLast_concat]
  simpa using read

end Literal

end CiTranslate.Yaml

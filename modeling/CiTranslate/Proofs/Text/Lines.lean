import CiTranslate.Proofs.Text.Blank

/-!
Texts that are tidied line by line: blank lines are dropped, and blanks at the ends of others.

A text of whole lines is tidied line by line (`tidied_append`), and stays as it is exactly when
every line feed in it follows a visible character (`tidied_eq_self_iff`). A machine that reads any
number of blanks like one of them does not see the difference (`foldl_tidied`).
-/

namespace CiTranslate.Text

/-- The lines of a text that are left when it is tidied. -/
def tidyRows (text : List Char) : List (List Char) :=
  ((lines text).map trimEnd).filter fun line => !isBlankText line

/-- The lines of a text that are left when it is tidied, each with its line end. -/
def tidied (text : List Char) : List Char :=
  (((lines text).map trimEnd).filter fun line => !isBlankText line).flatMap (· ++ ['\n'])

/-- What is left of one line. -/
def keptLine (line : List Char) : List Char :=
  if isBlankText line then [] else trimEnd line ++ ['\n']

/-! ### Blanks at the end of a line -/

theorem isBlankText_trimEnd (text : List Char) : isBlankText (trimEnd text) = isBlankText text := by
  obtain ⟨blanks, blank, whole⟩ := exists_blanks_trimEnd text
  have rest : blanks.all isBlank = true := List.all_eq_true.mpr blank
  calc isBlankText (trimEnd text)
      = isBlankText (trimEnd text ++ blanks) := by
        rw [isBlankText, isBlankText, List.all_append, rest, Bool.and_true]
    _ = isBlankText text := by rw [whole]

/-- Of a text of blanks, nothing is left when it is trimmed. -/
theorem isEmpty_trimEnd (text : List Char) : (trimEnd text).isEmpty = isBlankText text := by
  rw [← isBlankText_trimEnd]
  rcases List.eq_nil_or_concat (trimEnd text) with none | ⟨start, c, shape⟩
  · rw [none]
    rfl
  · have visible : isBlank c = false := isBlank_getLast?_trimEnd text c (by simp [shape])
    rw [shape, List.concat_eq_append]
    simp [isBlankText, visible]

/-- A carriage return at the end of a line is a blank like any other. -/
theorem trimEnd_withoutReturn (line : List Char) :
    trimEnd (withoutReturn line).reverse = trimEnd line.reverse := by
  unfold withoutReturn
  split
  · next line =>
    rw [List.reverse_cons, trimEnd_append_of_blank _ (by simp [isBlank])]
  · rfl

/-! ### Whole lines -/

theorem linesFrom_append {text : List Char} (oneLine : '\n' ∉ text) (line rest : List Char) :
    linesFrom line (text ++ '\n' :: rest) =
      (withoutReturn (text.reverse ++ line)).reverse :: linesFrom [] rest := by
  induction text generalizing line with
  | nil => simp [linesFrom]
  | cons c text ih =>
    obtain ⟨other, oneLine⟩ := not_or.mp (fun mem => oneLine (List.mem_cons.mpr mem))
    rw [List.cons_append, linesFrom, if_neg (by simpa using Ne.symm other), ih oneLine]
    simp

/-- The first line is tidied on its own. -/
theorem tidied_line {line : List Char} (oneLine : '\n' ∉ line) (rest : List Char) :
    tidied (line ++ '\n' :: rest) = keptLine line ++ tidied rest := by
  have first : trimEnd (withoutReturn line.reverse).reverse = trimEnd line := by
    rw [trimEnd_withoutReturn, List.reverse_reverse]
  rw [tidied, lines, linesFrom_append oneLine, List.append_nil, List.map_cons, first,
    List.filter_cons, isBlankText_trimEnd, keptLine, tidied, lines]
  cases isBlankText line <;> simp

theorem intercalate_append_newline {lines : List (List Char)} (some : lines ≠ []) :
    ['\n'].intercalate lines ++ ['\n'] = lines.flatMap (· ++ ['\n']) := by
  induction lines with
  | nil => exact absurd rfl some
  | cons line lines ih =>
    by_cases last : lines = []
    · simp [last]
    · rw [List.intercalate_cons_of_ne_nil last, List.append_assoc, ih last, List.flatMap_cons]

theorem append_newline_eq (text : List Char) :
    text ++ ['\n'] = (text.splitOn '\n').flatMap (· ++ ['\n']) := by
  rw [← intercalate_append_newline (List.splitOn_ne_nil _ _), List.intercalate_splitOn]

theorem newline_not_mem_splitOn {text line : List Char} (mem : line ∈ text.splitOn '\n') :
    '\n' ∉ line := by
  induction text generalizing line with
  | nil => simp_all
  | cons c text ih =>
    rw [List.splitOn_cons_eq_if_modifyHead] at mem
    split at mem
    · rcases List.mem_cons.mp mem with rfl | later
      · simp
      · exact ih later
    · next other =>
      obtain ⟨first, rest, shape⟩ := List.exists_cons_of_ne_nil (List.splitOn_ne_nil '\n' text)
      rw [shape] at mem ih
      rcases List.mem_cons.mp mem with rfl | later
      · have old : '\n' ∉ first := ih (List.mem_cons_self ..)
        simpa [old] using Ne.symm (by simpa using other)
      · exact ih (List.mem_cons_of_mem _ later)

theorem tidied_lines {lines : List (List Char)} (oneLine : ∀ line ∈ lines, '\n' ∉ line)
    (rest : List Char) :
    tidied (lines.flatMap (· ++ ['\n']) ++ rest) = lines.flatMap keptLine ++ tidied rest := by
  induction lines with
  | nil => rfl
  | cons line lines ih =>
    rw [List.flatMap_cons, List.append_assoc, List.append_assoc, List.singleton_append,
      tidied_line (oneLine line (List.mem_cons_self ..)),
      ih fun other mem => oneLine other (List.mem_cons_of_mem _ mem), List.flatMap_cons,
      List.append_assoc]

/-- A text of whole lines is tidied line by line. -/
theorem tidied_eq_flatMap (text : List Char) :
    tidied (text ++ ['\n']) = (text.splitOn '\n').flatMap keptLine := by
  have oneLine : ∀ line ∈ text.splitOn '\n', '\n' ∉ line := fun line => newline_not_mem_splitOn
  have whole := tidied_lines oneLine []
  rwa [List.append_nil, ← append_newline_eq, show tidied [] = [] from rfl, List.append_nil] at whole

/-- Two texts of whole lines are tidied on their own. -/
theorem tidied_append (text rest : List Char) :
    tidied (text ++ '\n' :: rest) = tidied (text ++ ['\n']) ++ tidied rest := by
  have whole : text ++ '\n' :: rest = (text.splitOn '\n').flatMap (· ++ ['\n']) ++ rest := by
    rw [← append_newline_eq]
    simp
  rw [whole, tidied_lines fun line => newline_not_mem_splitOn, tidied_eq_flatMap]

/-! ### Texts that are tidy already -/

/-- A line that is not blank and does not end in a blank. -/
def Solid (line : List Char) : Prop := ∃ c ∈ line.getLast?, isBlank c = false

instance (line : List Char) : Decidable (Solid line) :=
  decidable_of_iff ((line.getLast?.any fun c => !isBlank c) = true) (by
    cases last : line.getLast? <;> simp [Solid, last])

/-- The end of a text decides. -/
theorem Solid.append_left {line : List Char} (solid : Solid line) (start : List Char) :
    Solid (start ++ line) := by
  obtain ⟨c, last, visible⟩ := solid
  refine ⟨c, ?_, visible⟩
  rw [List.getLast?_append, Option.mem_def.mp last]
  rfl

/-- What was read before a text does not matter after its first character. -/
theorem getLast?_cons_or (c : Char) (text : List Char) (previous : Option Char) :
    (c :: text).getLast?.or previous = text.getLast?.or (some c) := by
  rw [List.getLast?_cons]
  cases text.getLast? <;> rfl

/-- In a steady text every line feed follows a visible character. -/
def Steady (previous : Option Char) : List Char → Prop
  | [] => True
  | c :: text => (c = '\n' → ∃ d ∈ previous, isBlank d = false) ∧ Steady (some c) text

instance decidableSteady : (previous : Option Char) → (text : List Char) →
    Decidable (Steady previous text)
  | _, [] => .isTrue trivial
  | previous, c :: text =>
    have := decidableSteady (some c) text
    decidable_of_iff ((c = '\n' → (previous.any fun d => !isBlank d) = true) ∧ Steady (some c) text)
      (by cases previous <;> simp [Steady])

theorem steady_append {previous : Option Char} {text rest : List Char} :
    Steady previous (text ++ rest) ↔
      Steady previous text ∧ Steady (text.getLast?.or previous) rest := by
  induction text generalizing previous with
  | nil => simp [Steady]
  | cons c text ih =>
    rw [List.cons_append, Steady, Steady, ih, getLast?_cons_or, and_assoc]

theorem steady_of_not_mem {previous : Option Char} {text : List Char} (oneLine : '\n' ∉ text) :
    Steady previous text := by
  induction text generalizing previous with
  | nil => trivial
  | cons c text ih =>
    obtain ⟨other, oneLine⟩ := not_or.mp (fun mem => oneLine (List.mem_cons.mpr mem))
    exact ⟨fun same => absurd same.symm other, ih oneLine⟩

/-- What is steady at the start of a text is steady everywhere. -/
theorem Steady.of_none {previous : Option Char} {text : List Char} (steady : Steady none text) :
    Steady previous text := by
  cases text with
  | nil => trivial
  | cons c text =>
    refine ⟨fun newline => ?_, steady.2⟩
    obtain ⟨d, none, -⟩ := steady.1 newline
    cases none

/-- A text is steady when all lines in it are solid that end there. -/
theorem steady_iff {text : List Char} :
    Steady none text ↔ ∀ line ∈ (text.splitOn '\n').dropLast, Solid line := by
  suffices run : ∀ start : List Char, '\n' ∉ start →
      (Steady start.getLast? text ↔
        ∀ line ∈ ((start ++ text).splitOn '\n').dropLast, Solid line) from
    run [] (by simp)
  induction text with
  | nil =>
    intro start oneLine
    simp [Steady, List.splitOn_eq_singleton oneLine]
  | cons c text ih =>
    intro start oneLine
    by_cases newline : c = '\n'
    · subst newline
      have later : Steady (some '\n') text ↔ Steady none text := by
        cases text <;> simp [Steady, isBlank]
      have rest := ih [] (by simp)
      rw [List.getLast?_nil, List.nil_append] at rest
      rw [List.splitOn_append_cons_self_of_not_mem oneLine,
        List.dropLast_cons_of_ne_nil (List.splitOn_ne_nil _ _), List.forall_mem_cons, Steady, later,
        rest]
      simp [Solid]
    · have longer : '\n' ∉ start ++ [c] := by simp [oneLine, Ne.symm newline]
      have rest := ih (start ++ [c]) longer
      rw [List.append_assoc, List.singleton_append] at rest
      rw [← rest, Steady]
      simp [newline]

theorem Solid.trimEnd_eq {line : List Char} (solid : Solid line) : trimEnd line = line := by
  obtain ⟨c, last, visible⟩ := solid
  exact trimEnd_eq_self fun d hd => by rwa [Option.mem_unique hd last]

/-- The lines of a steady text of whole lines. -/
theorem solid_of_mem_splitOn {text : List Char} (steady : Steady none (text ++ ['\n'])) :
    ∀ line ∈ text.splitOn '\n', Solid line := by
  have lines := steady_iff.mp steady
  rwa [List.splitOn_append_cons_self, List.splitOn_nil, List.dropLast_concat] at lines

theorem Solid.isBlankText_eq {line : List Char} (solid : Solid line) :
    isBlankText line = false := by
  obtain ⟨c, last, visible⟩ := solid
  exact List.all_eq_false.mpr ⟨c, List.mem_of_getLast? last, by simp [visible]⟩

theorem keptLine_of_solid {line : List Char} (solid : Solid line) :
    keptLine line = line ++ ['\n'] := by
  rw [keptLine, solid.isBlankText_eq, if_neg Bool.false_ne_true, solid.trimEnd_eq]

/-- A steady text of whole lines stays as it is. -/
theorem tidied_of_steady {text : List Char} (steady : Steady none (text ++ ['\n'])) :
    tidied (text ++ ['\n']) = text ++ ['\n'] := by
  rw [tidied_eq_flatMap, append_newline_eq]
  exact congrArg List.flatten
    (List.map_congr_left fun line mem => keptLine_of_solid (solid_of_mem_splitOn steady line mem))

/-! ### Texts that tidying changes -/

/-- Of blanks after a line, nothing is left. -/
theorem filter_linesFrom_of_blank (line : List Char) {blanks : List Char}
    (blank : ∀ c ∈ blanks, isBlank c = true) :
    ((linesFrom line blanks).map trimEnd).filter (fun line => !isBlankText line) =
      [trimEnd line.reverse].filter fun line => !isBlankText line := by
  induction blanks generalizing line with
  | nil =>
    cases line with
    | nil => rfl
    | cons c line => rfl
  | cons c blanks ih =>
    obtain ⟨own, blank⟩ := List.forall_mem_cons.mp blank
    rw [linesFrom]
    split
    · rw [List.map_cons, trimEnd_withoutReturn, List.filter_cons, List.filter_cons, ih [] blank]
      rfl
    · rw [ih (c :: line) blank, List.reverse_cons,
        trimEnd_append_of_blank _ (List.forall_mem_singleton.mpr own)]

/-- What is blank at the end of a text is blank in its lines. -/
theorem tidyRows_append_of_blank (text : List Char) {blanks : List Char}
    (blank : ∀ c ∈ blanks, isBlank c = true) : tidyRows (text ++ blanks) = tidyRows text := by
  suffices run : ∀ line : List Char,
      ((linesFrom line (text ++ blanks)).map trimEnd).filter (fun line => !isBlankText line) =
        ((linesFrom line text).map trimEnd).filter fun line => !isBlankText line from run []
  induction text with
  | nil =>
    intro line
    have none : ∀ c ∈ ([] : List Char), isBlank c = true := by simp
    rw [List.nil_append, filter_linesFrom_of_blank line blank, filter_linesFrom_of_blank line none]
  | cons c text ih =>
    intro line
    rw [List.cons_append, linesFrom, linesFrom]
    split
    · rw [List.map_cons, List.map_cons, List.filter_cons, List.filter_cons, ih]
    · rw [ih]

/-- The last line is tidied like the others, whether it ends or not. -/
theorem tidied_append_newline (text : List Char) : tidied (text ++ ['\n']) = tidied text :=
  congrArg (List.flatMap (· ++ ['\n']))
    (tidyRows_append_of_blank text (List.forall_mem_singleton.mpr rfl))

/-- A text with a visible character is not tidied away. -/
theorem tidied_ne_nil {text : List Char} {c : Char} (mem : c ∈ text) (visible : isBlank c = false) :
    tidied text ≠ [] := by
  rw [← tidied_append_newline, tidied_eq_flatMap]
  intro none
  have within : c ∈ (text.splitOn '\n').flatMap (· ++ ['\n']) := by
    rw [← append_newline_eq]
    exact List.mem_append_left _ mem
  obtain ⟨line, listed, within⟩ := List.mem_flatMap.mp within
  have own : c ∈ line := by
    rcases List.mem_append.mp within with own | newline
    · exact own
    · rw [List.mem_singleton.mp newline] at visible
      cases visible
  have notBlank : isBlankText line = false :=
    List.all_eq_false.mpr ⟨c, own, by simp [visible]⟩
  have kept := List.flatMap_eq_nil_iff.mp none line listed
  rw [keptLine, notBlank, if_neg Bool.false_ne_true] at kept
  exact List.append_ne_nil_of_right_ne_nil _ (List.cons_ne_nil _ _) kept

theorem length_trimEnd_le (text : List Char) : (trimEnd text).length ≤ text.length := by
  obtain ⟨blanks, -, whole⟩ := exists_blanks_trimEnd text
  have lengths := congrArg List.length whole
  rw [List.length_append] at lengths
  omega

theorem solid_of_trimEnd_eq {line : List Char} (nonempty : line ≠ []) (same : trimEnd line = line) :
    Solid line := by
  obtain ⟨start, c, rfl⟩ := List.eq_nil_or_concat line |>.resolve_left nonempty
  rw [List.concat_eq_append] at same ⊢
  cases blank : isBlank c with
  | false => exact ⟨c, by simp, blank⟩
  | true =>
    rw [trimEnd_append_of_blank start (List.forall_mem_singleton.mpr blank)] at same
    have shorter := length_trimEnd_le start
    rw [same, List.length_append, List.length_singleton] at shorter
    omega

theorem length_keptLine_le (line : List Char) :
    (keptLine line).length ≤ (line ++ ['\n']).length := by
  have shorter := length_trimEnd_le line
  rw [keptLine]
  split
  · exact Nat.zero_le _
  · rw [List.length_append, List.length_append]
    omega

/-- Only solid lines stay as they are. -/
theorem keptLine_eq_iff {line : List Char} : keptLine line = line ++ ['\n'] ↔ Solid line := by
  constructor
  · intro same
    rw [keptLine] at same
    split at same
    · exact absurd same.symm (List.append_ne_nil_of_right_ne_nil _ (List.cons_ne_nil _ _))
    · next visible =>
      refine solid_of_trimEnd_eq ?_ (List.append_cancel_right same)
      rintro rfl
      exact visible rfl
  · exact keptLine_of_solid

theorem length_flatMap_keptLine_le (lines : List (List Char)) :
    (lines.flatMap keptLine).length ≤ (lines.flatMap (· ++ ['\n'])).length := by
  induction lines with
  | nil => exact Nat.le_refl 0
  | cons line lines ih =>
    have own := length_keptLine_le line
    rw [List.flatMap_cons, List.flatMap_cons, List.length_append, List.length_append]
    omega

theorem flatMap_keptLine_eq_iff {lines : List (List Char)} :
    lines.flatMap keptLine = lines.flatMap (· ++ ['\n']) ↔ ∀ line ∈ lines, Solid line := by
  constructor
  · intro same
    induction lines with
    | nil => exact fun _ mem => nomatch mem
    | cons line lines ih =>
      rw [List.flatMap_cons, List.flatMap_cons] at same
      have lengths := congrArg List.length same
      rw [List.length_append, List.length_append] at lengths
      -- No line gets longer, so none of them got shorter.
      have own := length_keptLine_le line
      have others := length_flatMap_keptLine_le lines
      obtain ⟨first, later⟩ := List.append_inj same (by omega)
      exact List.forall_mem_cons.mpr ⟨keptLine_eq_iff.mp first, ih later⟩
  · intro solid
    exact congrArg List.flatten
      (List.map_congr_left fun line mem => keptLine_of_solid (solid line mem))

/-- The end of a text is kept up to the last visible character. -/
theorem exists_tidied_append {last : List Char} (oneLine : '\n' ∉ last) (solid : Solid last)
    (text : List Char) : ∃ kept, tidied (text ++ last ++ ['\n']) = kept ++ last ++ ['\n'] := by
  obtain ⟨lines, line, shape⟩ :=
    List.eq_nil_or_concat (text.splitOn '\n') |>.resolve_left (List.splitOn_ne_nil _ _)
  rw [List.concat_eq_append] at shape
  have lineEnds {other : List Char} (mem : other ∈ lines ++ [line]) : '\n' ∉ other :=
    newline_not_mem_splitOn (shape ▸ mem)
  have whole : text = lines.flatMap (· ++ ['\n']) ++ line := by
    have ends := append_newline_eq text
    rw [shape, List.flatMap_append, List.flatMap_singleton, ← List.append_assoc] at ends
    exact List.append_cancel_right ends
  have final : '\n' ∉ line ++ last := fun mem =>
    (List.mem_append.mp mem).elim (lineEnds (by simp)) oneLine
  refine ⟨lines.flatMap keptLine ++ line, ?_⟩
  rw [whole, List.append_assoc, List.append_assoc, ← List.append_assoc line,
    tidied_lines (fun other mem => lineEnds (List.mem_append_left _ mem)), tidied_line final,
    keptLine_of_solid (solid.append_left line), show tidied [] = [] from rfl]
  simp

/-- A text of whole lines is left alone exactly when it is steady. -/
theorem tidied_eq_self_iff {text : List Char} :
    tidied (text ++ ['\n']) = text ++ ['\n'] ↔ Steady none (text ++ ['\n']) := by
  constructor
  · intro same
    rw [tidied_eq_flatMap, append_newline_eq] at same
    have lines : ((text ++ ['\n']).splitOn '\n').dropLast = text.splitOn '\n' := by
      rw [List.splitOn_append_cons_self, List.splitOn_nil, List.dropLast_concat]
    rw [steady_iff, lines]
    exact flatMap_keptLine_eq_iff.mp same
  · exact tidied_of_steady

/-- After a visible character, a text is steady when no line feed in it follows a blank. -/
theorem steady_some_iff {c : Char} (visible : isBlank c = false) {text : List Char} :
    Steady (some c) text ↔ ∀ d, isBlank d = true → ¬[d, '\n'] <:+: text := by
  suffices run : ∀ c, Steady (some c) text ↔ ∀ d, isBlank d = true → ¬[d, '\n'] <:+: c :: text by
    rw [run c]
    refine forall₂_congr fun d blank => not_congr ?_
    have other : d ≠ c := by
      rintro rfl
      rw [visible] at blank
      cases blank
    simp [List.infix_cons_iff, List.prefix_cons_iff, other]
  induction text with
  | nil =>
    intro c
    simp [Steady, List.infix_cons_iff, List.prefix_cons_iff]
  | cons e text ih =>
    intro c
    have first : (∃ d ∈ some c, isBlank d = false) ↔ isBlank c = false := by simp
    rw [Steady, ih, first]
    constructor
    · rintro ⟨own, later⟩ d blank found
      rcases List.infix_cons_iff.mp found with here | there
      · obtain ⟨rest, same⟩ := here
        obtain ⟨rfl, tail⟩ := List.cons.inj same
        rw [own (List.cons.inj tail).1.symm] at blank
        cases blank
      · exact later d blank there
    · intro none
      refine ⟨fun newline => Bool.eq_false_iff.mpr fun blank => ?_, fun d blank found => ?_⟩
      · subst newline
        exact none c blank ⟨[], text, rfl⟩
      · exact none d blank (List.infix_cons_iff.mpr (.inr found))

/-! ### Machines that do not count blanks -/

section Machine

variable {σ : Type} {advance : σ → Char → σ}

/-- Blanks that follow a blank do not matter, nor which blanks they are. -/
def CollapsesBlanks (advance : σ → Char → σ) : Prop :=
  ∀ state c d, isBlank c = true → isBlank d = true →
    advance state c = advance state d ∧ advance (advance state c) d = advance state c

theorem CollapsesBlanks.foldl_newline (collapses : CollapsesBlanks advance) (state : σ)
    {blanks : List Char} (blank : ∀ c ∈ blanks, isBlank c = true) :
    (blanks ++ ['\n']).foldl advance state = advance state '\n' := by
  induction blanks generalizing state with
  | nil => rfl
  | cons c blanks ih =>
    have first := collapses state c '\n' (blank c (List.mem_cons_self ..)) rfl
    rw [List.cons_append, List.foldl_cons, ih _ fun d mem => blank d (List.mem_cons_of_mem _ mem),
      first.2, first.1]

/-- At the start of a line, the machine does not see whether the line is tidied. -/
theorem CollapsesBlanks.foldl_keptLine (collapses : CollapsesBlanks advance) {state : σ}
    (start : advance state '\n' = state) (line : List Char) :
    (keptLine line).foldl advance state = (line ++ ['\n']).foldl advance state := by
  cases blank : isBlankText line with
  | true =>
    rw [keptLine, blank, if_pos rfl,
      collapses.foldl_newline state (List.all_eq_true.mp blank), start]
    rfl
  | false =>
    obtain ⟨blanks, rest, whole⟩ := exists_blanks_trimEnd line
    rw [keptLine, blank, if_neg Bool.false_ne_true]
    conv => rhs; rw [← whole, List.append_assoc, List.foldl_append, collapses.foldl_newline _ rest]
    rw [List.foldl_append]
    rfl

/-- A machine that starts at a line and does not count blanks does not see whether the text is
tidied. -/
theorem CollapsesBlanks.foldl_tidied (collapses : CollapsesBlanks advance) {state : σ}
    (start : advance state '\n' = state) (text : List Char) :
    (tidied (text ++ ['\n'])).foldl advance state = (text ++ ['\n']).foldl advance state := by
  rw [tidied_eq_flatMap, append_newline_eq]
  generalize text.splitOn '\n' = lines
  induction lines generalizing state with
  | nil => rfl
  | cons line lines ih =>
    have next : advance ((line ++ ['\n']).foldl advance state) '\n' =
        (line ++ ['\n']).foldl advance state := by
      rw [List.foldl_append]
      exact (collapses _ '\n' '\n' rfl rfl).2
    rw [List.flatMap_cons, List.flatMap_cons, List.foldl_append, List.foldl_append,
      collapses.foldl_keptLine start, ih next]

end Machine

end CiTranslate.Text

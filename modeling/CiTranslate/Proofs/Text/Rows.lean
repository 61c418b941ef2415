import CiTranslate.Proofs.Text.Lines
import CiTranslate.Proofs.Text.Search

/-!
The lines that are left of a text when it is tidied.

What is blank around the text has no part in them, but for the indentation of the first one
(`tidyRows_trim`). Each of them is a part of the text (`infix_of_mem_tidyRows`) and ends in a
visible character (`solid_of_mem_tidyRows`). Lines of that kind are the lines of the text that they
are joined to (`lines_joinLines`).
-/

namespace CiTranslate.Text

/-! ### Lines -/

/-- For lines that are tidied, it does not matter whether line feeds end or divide them. -/
theorem tidyRows_eq_splitOn (text : List Char) :
    tidyRows text = ((text.splitOn '\n').map trimEnd).filter fun line => !isBlankText line := by
  suffices run : ∀ line : List Char, '\n' ∉ line →
      ((linesFrom line text).map trimEnd).filter (fun line => !isBlankText line) =
        (((line.reverse ++ text).splitOn '\n').map trimEnd).filter
          fun line => !isBlankText line from
    run [] (by simp)
  induction text with
  | nil =>
    intro line oneLine
    rw [List.append_nil, List.splitOn_eq_singleton (by simpa using oneLine)]
    cases line with
    | nil => rfl
    | cons c line => rfl
  | cons c text ih =>
    intro line oneLine
    by_cases newline : c = '\n'
    · have rest := ih [] (by simp)
      rw [List.reverse_nil, List.nil_append] at rest
      rw [linesFrom, if_pos (by simpa using newline), newline,
        List.splitOn_append_cons_self_of_not_mem (by simpa using oneLine), List.map_cons,
        List.map_cons, trimEnd_withoutReturn, List.filter_cons, List.filter_cons, rest]
    · have longer : '\n' ∉ c :: line := by simp [oneLine, Ne.symm newline]
      rw [linesFrom, if_neg (by simpa using newline), ih _ longer, List.reverse_cons,
        List.append_assoc, List.singleton_append]

theorem exists_splitOn_cons {c : Char} (other : c ≠ '\n') (text : List Char) :
    ∃ first rest, text.splitOn '\n' = first :: rest ∧
      (c :: text).splitOn '\n' = (c :: first) :: rest := by
  obtain ⟨first, rest, shape⟩ := List.exists_cons_of_ne_nil (List.splitOn_ne_nil '\n' text)
  refine ⟨first, rest, shape, ?_⟩
  rw [List.splitOn_cons_eq_if_modifyHead, if_neg (by simpa using other), shape,
    List.modifyHead_cons]

theorem joinLines_cons (row : List Char) {rows : List (List Char)} (some : rows ≠ []) :
    joinLines (row :: rows) = row ++ '\n' :: joinLines rows := by
  rw [joinLines, List.intercalate_cons_of_ne_nil some, List.append_assoc, joinLines]
  rfl

theorem infix_joinLines_of_mem {row : List Char} {rows : List (List Char)} (mem : row ∈ rows) :
    row <:+: joinLines rows := by
  induction rows with
  | nil => cases mem
  | cons first rows ih =>
    by_cases last : rows = []
    · subst last
      obtain rfl := List.mem_singleton.mp mem
      exact ⟨[], [], by
        rw [List.nil_append, List.append_nil, joinLines, List.intercalate_singleton]⟩
    · rw [joinLines_cons first last]
      rcases List.mem_cons.mp mem with rfl | later
      · exact (List.prefix_append ..).isInfix
      · exact (ih later).trans ((List.suffix_cons ..).trans (List.suffix_append ..)).isInfix

/-- A word without line feeds occurs in one of the lines. -/
theorem contains_joinLines {word : List Char} (nonempty : word ≠ []) (foreign : '\n' ∉ word)
    (rows : List (List Char)) : contains word (joinLines rows) = rows.any (contains word) := by
  induction rows with
  | nil => exact List.isEmpty_eq_false_iff.mpr nonempty
  | cons row rows ih =>
    by_cases last : rows = []
    · rw [last, joinLines, List.intercalate_singleton]
      simp
    · rw [joinLines_cons row last, contains_append_cons nonempty foreign, ih, List.any_cons]

theorem isPrefixOf_joinLines {word : List Char} (foreign : '\n' ∉ word) (row : List Char)
    (rows : List (List Char)) :
    word.isPrefixOf (joinLines (row :: rows)) = word.isPrefixOf row := by
  by_cases last : rows = []
  · rw [last, joinLines, List.intercalate_singleton]
  · rw [joinLines_cons row last, isPrefixOf_append_cons foreign]

theorem infix_of_mem_splitOn {text line : List Char} (mem : line ∈ text.splitOn '\n') :
    line <:+: text := by
  have part := infix_joinLines_of_mem mem
  rwa [joinLines, List.intercalate_splitOn] at part

theorem infix_of_mem_tidyRows {text row : List Char} (mem : row ∈ tidyRows text) :
    row <:+: text := by
  rw [tidyRows_eq_splitOn] at mem
  obtain ⟨line, listed, rfl⟩ := List.mem_map.mp (List.mem_filter.mp mem).1
  obtain ⟨blanks, -, whole⟩ := exists_blanks_trimEnd line
  have start : trimEnd line <+: line := ⟨blanks, whole⟩
  exact start.isInfix.trans (infix_of_mem_splitOn listed)

theorem solid_of_mem_tidyRows {text row : List Char} (mem : row ∈ tidyRows text) : Solid row := by
  obtain ⟨listed, visible⟩ := List.mem_filter.mp mem
  obtain ⟨line, -, rfl⟩ := List.mem_map.mp listed
  have some : trimEnd line ≠ [] := by
    intro none
    rw [none] at visible
    cases visible
  exact ⟨_, List.getLast?_eq_some_getLast some,
    isBlank_getLast?_trimEnd line _ (List.getLast?_eq_some_getLast some)⟩

/-- Of a text with solid lines, all lines are left when it is tidied. -/
theorem tidyRows_of_solid {text : List Char} (solid : ∀ line ∈ text.splitOn '\n', Solid line) :
    tidyRows text = text.splitOn '\n' := by
  have trimmed : (text.splitOn '\n').map trimEnd = text.splitOn '\n' :=
    (List.map_congr_left fun line mem => (solid line mem).trimEnd_eq).trans (List.map_id _)
  rw [tidyRows_eq_splitOn, trimmed]
  exact List.filter_eq_self.mpr fun line mem => by simp [(solid line mem).isBlankText_eq]

/-- No line feed is in a line. -/
theorem newline_not_mem_of_mem_tidyRows {text row : List Char} (mem : row ∈ tidyRows text) :
    '\n' ∉ row := by
  rw [tidyRows_eq_splitOn] at mem
  obtain ⟨line, listed, rfl⟩ := List.mem_map.mp (List.mem_filter.mp mem).1
  obtain ⟨blanks, -, whole⟩ := exists_blanks_trimEnd line
  intro inside
  exact newline_not_mem_splitOn listed (whole ▸ List.mem_append_left blanks inside)

/-! ### Blanks around a text -/

/-- A text that begins with a visible character has a first line, which begins with it. -/
theorem exists_tidyRows_cons {c : Char} (visible : isBlank c = false) (text : List Char) :
    ∃ row rows, tidyRows (c :: text) = (c :: row) :: rows := by
  have other : c ≠ '\n' := by
    rintro rfl
    cases visible
  obtain ⟨first, rest, -, shape⟩ := exists_splitOn_cons other text
  have trimmed : trimEnd (c :: first) = c :: trimEnd first := trimEnd_append_cons [] visible first
  have filled : isBlankText (c :: trimEnd first) = false := by simp [isBlankText, visible]
  refine ⟨trimEnd first, (rest.map trimEnd).filter fun line => !isBlankText line, ?_⟩
  rw [tidyRows_eq_splitOn, shape, List.map_cons, trimmed,
    List.filter_cons_of_pos (by simp [filled])]

/-- A blank at the start is a blank line or belongs to the indentation of the first line. -/
theorem modifyHead_tidyRows_cons {c : Char} (blank : isBlank c = true) (text : List Char) :
    (tidyRows (c :: text)).modifyHead trimStart = (tidyRows text).modifyHead trimStart := by
  rw [tidyRows_eq_splitOn, tidyRows_eq_splitOn]
  by_cases newline : c = '\n'
  · subst newline
    rw [List.splitOn_cons_eq_if_modifyHead, if_pos (by rfl)]
    rfl
  · obtain ⟨first, rest, before, after⟩ := exists_splitOn_cons newline text
    have same : isBlankText (c :: first) = isBlankText first := by simp [isBlankText, blank]
    have indented : trimStart (trimEnd (c :: first)) = trimStart (trimEnd first) := by
      rw [trimStart_trimEnd, trimStart_trimEnd, trim, trimStart_cons_of_blank blank, ← trim]
    rw [before, after, List.map_cons, List.map_cons, List.filter_cons, List.filter_cons,
      isBlankText_trimEnd, isBlankText_trimEnd, same]
    cases isBlankText first with
    | true => rfl
    | false => exact congrArg (· :: _) indented

theorem tidyRows_trimStart (text : List Char) :
    tidyRows (trimStart text) = (tidyRows text).modifyHead trimStart := by
  induction text with
  | nil => rfl
  | cons c text ih =>
    cases blank : isBlank c with
    | true => rw [trimStart_cons_of_blank blank, ih, modifyHead_tidyRows_cons blank]
    | false =>
      obtain ⟨row, rows, shape⟩ := exists_tidyRows_cons blank text
      rw [trimStart_cons_of_not_blank blank, shape, List.modifyHead_cons,
        trimStart_cons_of_not_blank blank]

/-- Nothing is lost of the lines of a trimmed text but the indentation of the first one. -/
theorem tidyRows_trim (text : List Char) :
    tidyRows (trim text) = (tidyRows text).modifyHead trimStart := by
  obtain ⟨blanks, blank, whole⟩ := exists_blanks_trimEnd (trimStart text)
  rw [trim, ← tidyRows_append_of_blank (trimEnd (trimStart text)) blank, whole, tidyRows_trimStart]

/-! ### Lines that are joined -/

theorem linesFrom_of_not_mem {text : List Char} (oneLine : '\n' ∉ text) (line : List Char) :
    linesFrom line text = linesFrom (text.reverse ++ line) [] := by
  induction text generalizing line with
  | nil => rfl
  | cons c text ih =>
    obtain ⟨other, oneLine⟩ := not_or.mp (fun mem => oneLine (List.mem_cons.mpr mem))
    have later : linesFrom line (c :: text) = linesFrom (c :: line) text := by
      rw [linesFrom, if_neg (by simpa using Ne.symm other)]
    rw [later, ih oneLine, List.reverse_cons, List.append_assoc, List.singleton_append]

theorem Solid.withoutReturn_reverse {row : List Char} (solid : Solid row) :
    withoutReturn row.reverse = row.reverse := by
  obtain ⟨c, last, visible⟩ := solid
  obtain ⟨start, rfl⟩ := List.getLast?_eq_some_iff.mp last
  rw [List.reverse_append]
  unfold withoutReturn
  split
  · next shape =>
    obtain ⟨rfl, -⟩ := List.cons.inj shape
    cases visible
  · rfl

/-- Lines that are joined are divided again where none of them holds a line feed or ends in a
blank. -/
theorem lines_joinLines {rows : List (List Char)} (oneLine : ∀ row ∈ rows, '\n' ∉ row)
    (solid : ∀ row ∈ rows, Solid row) : lines (joinLines rows) = rows := by
  induction rows with
  | nil => rfl
  | cons row rows ih =>
    obtain ⟨ownLine, oneLine⟩ := List.forall_mem_cons.mp oneLine
    obtain ⟨own, solid⟩ := List.forall_mem_cons.mp solid
    by_cases last : rows = []
    · have some : row.reverse.isEmpty = false := by
        obtain ⟨c, last, -⟩ := own
        cases row with
        | nil => cases last
        | cons d row => simp
      have whole : joinLines [row] = row := List.intercalate_singleton
      rw [last, whole, lines, linesFrom_of_not_mem ownLine, List.append_nil, linesFrom, some,
        if_neg Bool.false_ne_true, List.reverse_reverse]
    · rw [joinLines_cons row last, lines, linesFrom_append ownLine, List.append_nil,
        own.withoutReturn_reverse, List.reverse_reverse, ← lines, ih oneLine solid]

end CiTranslate.Text

import CiTranslate.Payload.Yaml
import CiTranslate.Proofs.Text.Rows

/-!
What cleaning leaves of YAML texts.

All lines are left but the blank ones and the fences. Their indentation is left as well, except that
the first line that is not blank loses it (`lines_cleanYaml`).

The clean texts are the empty text and those without such lines that begin with the mark of a
document (`IsClean`). What was cleaned is clean (`isClean_cleanYaml`), and a clean text stays as it
is (`cleanYaml_eq_self_iff`).
-/

namespace CiTranslate.Payload

/-! ### Lines that are left -/

/-- A fence has no blanks, so that those at the end of a text do not matter to it. -/
theorem isPrefixOf_fence_trimEnd (text : List Char) :
    fence.isPrefixOf (Text.trimEnd text) = fence.isPrefixOf text := by
  obtain ⟨blanks, blank, whole⟩ := Text.exists_blanks_trimEnd text
  cases blanks with
  | nil => rw [List.append_nil] at whole; rw [whole]
  | cons c blanks =>
    have visible : ∀ d ∈ fence, Text.isBlank d = false := by decide
    have foreign : c ∉ fence := fun mem => by
      have own := blank c (List.mem_cons_self ..)
      rw [visible c mem] at own
      cases own
    rw [← Text.isPrefixOf_append_cons foreign (Text.trimEnd text) blanks, whole]

theorem isFenceLine_trimEnd (line : List Char) :
    isFenceLine (Text.trimEnd line) = isFenceLine line := by
  rw [isFenceLine, Text.trimStart_trimEnd, Text.trim, isPrefixOf_fence_trimEnd, isFenceLine]

theorem isFenceLine_trimStart (line : List Char) :
    isFenceLine (Text.trimStart line) = isFenceLine line := by
  rw [isFenceLine, Text.trimStart_eq_self (Text.isBlank_head?_trimStart line), isFenceLine]

theorem contentLines_eq_filter (text : List Char) :
    contentLines text = (Text.tidyRows (Text.trim text)).filter fun line => !isFenceLine line := by
  rw [contentLines, Text.tidyRows, List.filter_filter]
  refine List.filter_congr fun line mem => ?_
  obtain ⟨whole, -, rfl⟩ := List.mem_map.mp mem
  rw [Text.isBlankText_trimEnd, Text.isEmpty_trimEnd, Bool.and_comm]

/-- The first line that is not blank loses its indentation, also where it is a fence. -/
theorem contentLines_eq (text : List Char) :
    contentLines text =
      ((Text.tidyRows text).modifyHead Text.trimStart).filter fun line => !isFenceLine line := by
  rw [contentLines_eq_filter, Text.tidyRows_trim]

/-- A line that is neither blank nor a fence, and has no blanks at its end. -/
structure IsContent (line : List Char) : Prop where
  oneLine : '\n' ∉ line
  solid : Text.Solid line
  unfenced : isFenceLine line = false

theorem isContent_of_mem_contentLines {text line : List Char} (mem : line ∈ contentLines text) :
    IsContent line := by
  rw [contentLines_eq_filter] at mem
  obtain ⟨listed, unfenced⟩ := List.mem_filter.mp mem
  exact ⟨Text.newline_not_mem_of_mem_tidyRows listed, Text.solid_of_mem_tidyRows listed,
    by simpa using unfenced⟩

theorem mem_markDocument {line : List Char} {lines : List (List Char)}
    (mem : line ∈ markDocument lines) : line = documentStart ∨ line ∈ lines := by
  cases lines with
  | nil => cases mem
  | cons first rest =>
    rw [markDocument] at mem
    split at mem
    · exact .inr mem
    · exact List.mem_cons.mp mem

theorem isContent_of_mem_written {text : List Char} :
    ∀ line ∈ markDocument (contentLines text), IsContent line := by
  intro line mem
  rcases mem_markDocument mem with rfl | mem
  · exact ⟨by decide, by decide, by decide⟩
  · exact isContent_of_mem_contentLines mem

/-! ### Indentation -/

/-- The lines of a text that are neither blank nor a fence, with their indentation but without
blanks at their ends. -/
def indentedLines (text : List Char) : List (List Char) :=
  let kept := (Text.lines text).filter fun line => !Text.isBlankText line && !isFenceLine line
  kept.map Text.trimEnd

theorem indentedLines_eq_filter (text : List Char) :
    indentedLines text = (Text.tidyRows text).filter fun line => !isFenceLine line := by
  rw [indentedLines, Text.tidyRows, List.filter_filter, List.filter_map]
  refine congrArg (List.map Text.trimEnd) (List.filter_congr fun line mem => ?_)
  rw [Function.comp_apply, isFenceLine_trimEnd, Text.isBlankText_trimEnd, Bool.and_comm]

theorem length_contentLines (text : List Char) :
    (contentLines text).length = (indentedLines text).length := by
  rw [contentLines_eq, indentedLines_eq_filter]
  cases Text.tidyRows text with
  | nil => rfl
  | cons first rest =>
    rw [List.modifyHead_cons, List.filter_cons, List.filter_cons, isFenceLine_trimStart]
    cases isFenceLine first with
    | true => rfl
    | false => rfl

theorem contentLines_eq_indentedLines_iff {text : List Char} :
    contentLines text = indentedLines text ↔
      ∀ first ∈ (Text.tidyRows text).head?,
        isFenceLine first = true ∨ Text.trimStart first = first := by
  rw [contentLines_eq, indentedLines_eq_filter]
  cases Text.tidyRows text with
  | nil => simp
  | cons first rest =>
    rw [List.modifyHead_cons, List.filter_cons, List.filter_cons, isFenceLine_trimStart]
    cases fenced : isFenceLine first with
    | true => simp [fenced]
    | false => simp [fenced]

/-- The mark of a document is told from the lines by their number. -/
theorem markDocument_eq_or_iff {lines others : List (List Char)}
    (number : lines.length = others.length) :
    (markDocument lines = others ∨ markDocument lines = documentStart :: others) ↔
      lines = others := by
  cases lines with
  | nil =>
    obtain rfl := List.length_eq_zero_iff.mp number.symm
    simp [markDocument]
  | cons first rest =>
    have longer : first :: rest ≠ documentStart :: others := by
      intro same
      have lengths := congrArg List.length same
      rw [number, List.length_cons] at lengths
      omega
    have shorter : documentStart :: first :: rest ≠ others := by
      intro same
      rw [← same] at number
      simp at number
    rw [markDocument]
    split
    · simp [longer]
    · simp [shorter]

/-- **Cleaning changes no indentation but one.** The lines of the clean text are, behind the mark of
a document, those of the text that are neither blank nor a fence, without blanks at their ends, but
the first line that is not blank loses its indentation. So all indentation is kept exactly when that
line is a fence or has none. -/
theorem lines_cleanYaml (text : List Char) :
    Text.lines (cleanYaml text) =
        markDocument
          (((Text.tidyRows text).modifyHead Text.trimStart).filter fun line => !isFenceLine line) ∧
      ((Text.lines (cleanYaml text) = indentedLines text ∨
          Text.lines (cleanYaml text) = documentStart :: indentedLines text) ↔
        ∀ first ∈ (Text.tidyRows text).head?,
          isFenceLine first = true ∨ Text.trimStart first = first) := by
  have whole : Text.lines (cleanYaml text) = markDocument (contentLines text) :=
    Text.lines_joinLines (fun line mem => (isContent_of_mem_written line mem).oneLine)
      fun line mem => (isContent_of_mem_written line mem).solid
  refine ⟨by rw [whole, contentLines_eq], ?_⟩
  rw [whole, markDocument_eq_or_iff (length_contentLines text), contentLines_eq_indentedLines_iff]

/-- The first line loses its indentation, and with it the place in its block. -/
theorem not_lines_cleanYaml :
    ¬∀ text, Text.lines (cleanYaml text) = indentedLines text ∨
      Text.lines (cleanYaml text) = documentStart :: indentedLines text := by
  intro kept
  exact absurd (kept "  a: 1\n  b: 2".toList) (by decide)

/-! ### Clean texts -/

/-- An empty text, or one that begins with the mark of a document and has no blank line, no fence
and no blanks at the end of a line. -/
def IsClean (text : List Char) : Prop :=
  text = [] ∨
    documentStart <+: text ∧
      ∀ line ∈ text.splitOn '\n', Text.Solid line ∧ isFenceLine line = false

theorem exists_markDocument_cons {lines : List (List Char)} (some : lines ≠ []) :
    ∃ first rest, markDocument lines = first :: rest ∧ documentStart <+: first := by
  obtain ⟨first, rest, rfl⟩ := List.exists_cons_of_ne_nil some
  rw [markDocument]
  split
  · next marked => exact ⟨first, rest, rfl, List.isPrefixOf_iff_prefix.mp marked⟩
  · exact ⟨documentStart, first :: rest, rfl, List.prefix_rfl⟩

theorem isClean_cleanYaml (text : List Char) : IsClean (cleanYaml text) := by
  by_cases none : contentLines text = []
  · refine .inl ?_
    rw [cleanYaml, none]
    rfl
  · obtain ⟨first, rest, shape, marked⟩ := exists_markDocument_cons none
    have divided : (cleanYaml text).splitOn '\n' = markDocument (contentLines text) :=
      List.splitOn_intercalate '\n' (fun line mem => (isContent_of_mem_written line mem).oneLine)
        (shape ▸ List.cons_ne_nil first rest)
    refine .inr ⟨?_, fun line mem => ?_⟩
    · rw [cleanYaml, shape, ← List.isPrefixOf_iff_prefix, Text.isPrefixOf_joinLines (by decide),
        List.isPrefixOf_iff_prefix]
      exact marked
    · have content := isContent_of_mem_written line (divided ▸ mem)
      exact ⟨content.solid, content.unfenced⟩

/-- A clean text stays as it is. -/
theorem IsClean.cleanYaml_eq {text : List Char} (clean : IsClean text) : cleanYaml text = text := by
  rcases clean with rfl | ⟨marked, solid⟩
  · rfl
  · have whole : Text.joinLines (text.splitOn '\n') = text := List.intercalate_splitOn '\n'
    have rows := Text.tidyRows_of_solid fun line mem => (solid line mem).1
    obtain ⟨first, rest, shape⟩ := List.exists_cons_of_ne_nil (List.splitOn_ne_nil '\n' text)
    rw [← List.isPrefixOf_iff_prefix, ← whole, shape,
      Text.isPrefixOf_joinLines (by decide)] at marked
    have start : Text.trimStart first = first := by
      obtain ⟨more, rfl⟩ := List.isPrefixOf_iff_prefix.mp marked
      exact Text.trimStart_cons_of_not_blank rfl _
    rw [cleanYaml, contentLines_eq, rows, shape, List.modifyHead_cons, start, ← shape,
      List.filter_eq_self.mpr fun line mem => by simp [(solid line mem).2], shape, markDocument,
      if_pos marked, ← shape, whole]

theorem cleanYaml_eq_self_iff {text : List Char} : cleanYaml text = text ↔ IsClean text :=
  ⟨fun same => same ▸ isClean_cleanYaml text, IsClean.cleanYaml_eq⟩

end CiTranslate.Payload

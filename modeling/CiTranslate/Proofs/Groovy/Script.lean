import CiTranslate.Groovy.Script
import CiTranslate.Proofs.Groovy.Literal

/-!
What cleaning leaves of scripts that were written row by row.

A row consists of code, literals, and perhaps a comment at its end. Cleaning takes the
comments out and keeps everything else (`Clear.cleans`), as the literals end where they were
written to end; it then tidies each row on its own (`clean_rows`).
-/

namespace CiTranslate.Groovy

/-! ### Passages -/

/-- A part of a passage that is kept stays, up to the next passage. -/
theorem withoutNoiseFrom_kept (previous : Option Char) (part rest : List Char) :
    withoutNoiseFrom previous true part.length (part ++ rest) =
      part ++ withoutNoiseFrom (part.getLast?.or previous) true 0 rest := by
  induction part generalizing previous with
  | nil => rfl
  | cons c part ih =>
    rw [List.length_cons, List.cons_append, withoutNoiseFrom, if_pos rfl, ih, Text.getLast?_cons_or]
    rfl

/-- A part of a passage that is not kept is dropped, up to the next passage. -/
theorem withoutNoiseFrom_dropped (previous : Option Char) (part rest : List Char) :
    withoutNoiseFrom previous false part.length (part ++ rest) =
      withoutNoiseFrom (part.getLast?.or previous) true 0 rest := by
  induction part generalizing previous with
  | nil => cases rest <;> rfl
  | cons c part ih =>
    rw [List.length_cons, List.cons_append, withoutNoiseFrom, if_neg Bool.false_ne_true, ih,
      Text.getLast?_cons_or]

theorem withoutNoiseFrom_of_kept {previous : Option Char} {part rest : List Char}
    (nonempty : part ≠ []) (kept : passage previous (part ++ rest) = (true, part.length)) :
    withoutNoiseFrom previous true 0 (part ++ rest) =
      part ++ withoutNoiseFrom (part.getLast?.or previous) true 0 rest := by
  cases part with
  | nil => exact absurd rfl nonempty
  | cons c part =>
    rw [List.cons_append] at kept ⊢
    rw [withoutNoiseFrom, kept]
    simp only [if_true, List.length_cons, Nat.add_sub_cancel]
    rw [withoutNoiseFrom_kept, Text.getLast?_cons_or]
    rfl

theorem withoutNoiseFrom_of_dropped {previous : Option Char} {part rest : List Char}
    (nonempty : part ≠ []) (dropped : passage previous (part ++ rest) = (false, part.length)) :
    withoutNoiseFrom previous true 0 (part ++ rest) =
      withoutNoiseFrom (part.getLast?.or previous) true 0 rest := by
  cases part with
  | nil => exact absurd rfl nonempty
  | cons c part =>
    rw [List.cons_append] at dropped ⊢
    rw [withoutNoiseFrom, dropped]
    simp only [Bool.false_eq_true, if_false, List.length_cons, Nat.add_sub_cancel]
    rw [withoutNoiseFrom_dropped, Text.getLast?_cons_or]

/-- A character that is a passage of its own stays. -/
theorem withoutNoiseFrom_cons_of_kept {previous : Option Char} {c : Char} {text : List Char}
    (kept : passage previous (c :: text) = (true, 1)) :
    withoutNoiseFrom previous true 0 (c :: text) = c :: withoutNoiseFrom (some c) true 0 text := by
  rw [withoutNoiseFrom, kept]
  rfl

/-! ### Code -/

/-- Whether a text that begins like this can begin with a name. -/
def mayBegin (name text : List Char) : Bool := name.isPrefixOf text || text.isPrefixOf name

/-- Whether cleaning takes a text character by character, whatever follows it: no literal, no
comment and no debug name begins in it. -/
def isPlain : List Char → Bool
  | [] => true
  | c :: text =>
    !isQuote c && c != '/' && debugNames.all (fun name => !mayBegin name (c :: text)) &&
      isPlain text

theorem isPrefixOf_append_of_not_mayBegin {name text : List Char}
    (never : mayBegin name text = false) (rest : List Char) :
    name.isPrefixOf (text ++ rest) = false := by
  refine Bool.eq_false_iff.mpr fun found => ?_
  have first : name <+: text ++ rest := List.isPrefixOf_iff_prefix.mp found
  have second : text <+: text ++ rest := List.prefix_append text rest
  obtain ⟨short, long⟩ := Bool.or_eq_false_iff.mp never
  rcases List.prefix_or_prefix_of_prefix first second with shorter | longer
  · rw [List.isPrefixOf_iff_prefix.mpr shorter] at short
    cases short
  · rw [List.isPrefixOf_iff_prefix.mpr longer] at long
    cases long

theorem literalLength?_of_not_isQuote {c : Char} (other : isQuote c = false) (text : List Char) :
    literalLength? (c :: text) = none := by
  simp [literalLength?, other]

theorem noiseLength?_of_ne {c : Char} (other : c ≠ '/') (previous : Option Char)
    (text : List Char) : noiseLength? previous (c :: text) = debugLength? previous (c :: text) := by
  rw [noiseLength?]
  · intro _ same
    exact other (List.cons.inj same).1
  · intro _ same
    exact other (List.cons.inj same).1

/-- A character of code with which no debug name begins is kept for itself. -/
theorem passage_of_nameless {c : Char} {text : List Char} (quote : isQuote c = false)
    (slash : c ≠ '/') (nameless : ∀ name ∈ debugNames, name.isPrefixOf (c :: text) = false)
    (previous : Option Char) : passage previous (c :: text) = (true, 1) := by
  have debug : debugLength? previous (c :: text) = none := by
    have none : debugNames.find? (·.isPrefixOf (c :: text)) = none :=
      List.find?_eq_none.mpr fun name mem => Bool.eq_false_iff.mp (nameless name mem)
    rw [debugLength?, none]
    split <;> rfl
  rw [passage, literalLength?_of_not_isQuote quote, noiseLength?_of_ne slash, debug]

theorem passage_of_isPlain {c : Char} {text : List Char} (plain : isPlain (c :: text) = true)
    (previous : Option Char) (rest : List Char) :
    passage previous (c :: (text ++ rest)) = (true, 1) := by
  simp only [isPlain, Bool.and_eq_true, Bool.not_eq_true', bne_iff_ne, ne_eq] at plain
  obtain ⟨⟨⟨quote, slash⟩, names⟩, -⟩ := plain
  refine passage_of_nameless quote slash (fun name mem => ?_) previous
  have never := List.all_eq_true.mp names name mem
  exact isPrefixOf_append_of_not_mayBegin (by simpa using never) rest

theorem withoutNoiseFrom_code {code : List Char} (plain : isPlain code = true)
    (previous : Option Char) (rest : List Char) :
    withoutNoiseFrom previous true 0 (code ++ rest) =
      code ++ withoutNoiseFrom (code.getLast?.or previous) true 0 rest := by
  induction code generalizing previous with
  | nil => rfl
  | cons c code ih =>
    have first := passage_of_isPlain plain previous rest
    have later : isPlain code = true := (Bool.and_eq_true_iff.mp plain).2
    rw [List.cons_append, withoutNoiseFrom_cons_of_kept first, ih later, Text.getLast?_cons_or]
    rfl

/-! ### Literals and comments -/

theorem withoutNoiseFrom_literal (previous : Option Char) (text : List Char) {rest : List Char}
    (next : rest.head? ≠ some '\'') :
    withoutNoiseFrom previous true 0 (quote text ++ rest) =
      quote text ++ withoutNoiseFrom (some '\'') true 0 rest := by
  have nonempty : quote text ≠ [] := by
    obtain ⟨marks, shape⟩ := exists_quote_eq_cons text
    simp [shape]
  have kept : passage previous (quote text ++ rest) = (true, (quote text).length) := by
    rw [passage, literalLength?_quote text next]
  rw [withoutNoiseFrom_of_kept nonempty kept, getLast?_quote]
  rfl

/-- A comment goes up to the end of its line or of the text, whatever is in it. -/
theorem passage_lineComment {previous : Option Char} (allowed : previous ≠ some ':')
    {text : List Char} (oneLine : '\n' ∉ text) {rest : List Char}
    (stop : ∀ c ∈ rest.head?, c = '\n') :
    passage previous ('/' :: '/' :: text ++ rest) = (false, ('/' :: '/' :: text).length) := by
  have inside : ∀ c ∈ text, (c != '\n') = true := by
    intro c mem
    have other : c ≠ '\n' := by
      rintro rfl
      exact oneLine mem
    simpa using other
  have after : rest.takeWhile (· != '\n') = [] := by
    cases rest with
    | nil => rfl
    | cons c rest => simp [stop c rfl]
  have length : ((text ++ rest).takeWhile (· != '\n')).length = text.length := by
    rw [List.takeWhile_append_of_pos inside, after, List.append_nil]
  rw [List.cons_append, List.cons_append, passage, literalLength?_of_not_isQuote (by decide),
    noiseLength?, length]
  simp [allowed]

theorem withoutNoiseFrom_comment {previous : Option Char} (allowed : previous ≠ some ':')
    {text : List Char} (oneLine : '\n' ∉ text) (rest : List Char) :
    ∃ last, withoutNoiseFrom previous true 0 ('/' :: '/' :: (text ++ '\n' :: rest)) =
      withoutNoiseFrom last true 0 ('\n' :: rest) := by
  have dropped := passage_lineComment allowed oneLine (show ∀ c ∈ ('\n' :: rest).head?, c = '\n'
    from fun c first => (Option.some.inj first).symm)
  exact ⟨_, withoutNoiseFrom_of_dropped (by simp) dropped⟩

/-! ### Rows -/

/-- A part of a row. -/
inductive Piece where
  | code (text : List Char)
  | literal (text : List Char)
  | comment (text : List Char)

namespace Piece

def text : Piece → List Char
  | .code text => text
  | .literal text => quote text
  | .comment text => '/' :: '/' :: text

/-- Whether cleaning keeps the piece. -/
def isKept : Piece → Bool
  | .comment _ => false
  | _ => true

end Piece

/-- A row with its line end. -/
def rowText (row : List Piece) : List Char := row.flatMap Piece.text ++ ['\n']

@[simp] theorem rowText_nil : rowText [] = ['\n'] := rfl

@[simp] theorem rowText_cons (piece : Piece) (row : List Piece) :
    rowText (piece :: row) = piece.text ++ rowText row := by
  rw [rowText, List.flatMap_cons, List.append_assoc, ← rowText]

/-- Rows of which cleaning takes the comments out. -/
def Cleans (row : List Piece) : Prop :=
  ∀ previous rest, previous ≠ some ':' →
    withoutNoiseFrom previous true 0 (rowText row ++ rest) =
      rowText (row.filter Piece.isKept) ++ withoutNoiseFrom (some '\n') true 0 rest

/-- Rows of which the pieces are told apart: code is plain, no quote follows a literal, and a
comment is at the end and not part of an address. -/
def Clear (previous : Option Char) : List Piece → Prop
  | [] => True
  | .code text :: row => isPlain text = true ∧ Clear (text.getLast?.or previous) row
  | .literal _ :: row => (rowText row).head? ≠ some '\'' ∧ Clear (some '\'') row
  | .comment text :: row => previous ≠ some ':' ∧ '\n' ∉ text ∧ row = []

theorem Clear.withoutNoiseFrom_rowText {previous : Option Char} {row : List Piece}
    (clear : Clear previous row) (rest : List Char) :
    withoutNoiseFrom previous true 0 (rowText row ++ rest) =
      rowText (row.filter Piece.isKept) ++ withoutNoiseFrom (some '\n') true 0 rest := by
  have lineEnd (last : Option Char) : withoutNoiseFrom last true 0 ('\n' :: rest) =
      '\n' :: withoutNoiseFrom (some '\n') true 0 rest :=
    withoutNoiseFrom_code (show isPlain ['\n'] = true by decide) last rest
  induction row generalizing previous with
  | nil => exact lineEnd previous
  | cons piece row ih =>
    rw [rowText_cons, List.append_assoc]
    cases piece with
    | code text =>
      rw [Piece.text, withoutNoiseFrom_code clear.1, ih clear.2, List.filter_cons_of_pos rfl,
        rowText_cons, List.append_assoc]
      rfl
    | literal text =>
      have next : (rowText row ++ rest).head? ≠ some '\'' := by
        have own := clear.1
        cases shape : rowText row with
        | nil => simp [rowText] at shape
        | cons c chars =>
          rw [shape] at own
          exact own
      rw [Piece.text, withoutNoiseFrom_literal previous text next, ih clear.2,
        List.filter_cons_of_pos rfl, rowText_cons, List.append_assoc]
      rfl
    | comment text =>
      obtain ⟨allowed, oneLine, rfl⟩ := clear
      obtain ⟨last, dropped⟩ := withoutNoiseFrom_comment allowed oneLine rest
      exact dropped.trans (lineEnd last)

theorem Clear.cleans {row : List Piece}
    (clear : ∀ previous, previous ≠ some ':' → Clear previous row) : Cleans row :=
  fun previous rest allowed => (clear previous allowed).withoutNoiseFrom_rowText rest

/-- Comments are taken out row by row. -/
theorem withoutNoiseFrom_rows {rows : List (List Piece)} (cleans : ∀ row ∈ rows, Cleans row)
    {previous : Option Char} (allowed : previous ≠ some ':') :
    withoutNoiseFrom previous true 0 (rows.flatMap rowText) =
      rows.flatMap fun row => rowText (row.filter Piece.isKept) := by
  induction rows generalizing previous with
  | nil => rfl
  | cons row rows ih =>
    rw [List.flatMap_cons, List.flatMap_cons, cleans row (List.mem_cons_self ..) _ _ allowed,
      ih (fun other mem => cleans other (List.mem_cons_of_mem _ mem)) (by decide)]

/-! ### Words that do not occur in rows -/

/-- Words that cannot reach over the marks of a literal or a comment, nor over a line end. -/
def Foreign (word : List Char) : Prop :=
  word ≠ [] ∧ ∀ c ∈ word, isEscaped c = false ∧ c ≠ '/' ∧ c ≠ '\n'

instance (word : List Char) : Decidable (Foreign word) :=
  decidable_of_iff
    (word ≠ [] ∧ (word.all fun c => !isEscaped c && c != '/' && c != '\n') = true)
    (by simp [Foreign, and_assoc])

/-- A piece in which a word does not occur, and which does not continue it. -/
def Piece.Lacks (word : List Char) : Piece → Prop
  | .code text => Text.contains word text = false ∧ ∀ c ∈ text.head?, c ∉ word
  | .literal text => Text.contains word text = false
  | .comment text => Text.contains word text = false

instance (word : List Char) (piece : Piece) : Decidable (piece.Lacks word) :=
  match piece with
  | .code text => decidable_of_iff
      (Text.contains word text = false ∧ (text.head?.all fun c => !word.contains c) = true)
      (by cases text <;> simp [Piece.Lacks])
  | .literal text => inferInstanceAs (Decidable (Text.contains word text = false))
  | .comment text => inferInstanceAs (Decidable (Text.contains word text = false))

theorem Piece.Lacks.contains_text {word : List Char} (foreign : Foreign word) {piece : Piece}
    (lacks : piece.Lacks word) :
    Text.contains word piece.text = false ∧ ∀ c ∈ piece.text.head?, c ∉ word := by
  obtain ⟨nonempty, other⟩ := foreign
  have slash : '/' ∉ word := fun mem => (other _ mem).2.1 rfl
  have mark : '\'' ∉ word := fun mem => nomatch (other _ mem).1
  cases piece with
  | code text => exact lacks
  | literal text =>
    obtain ⟨marks, shape⟩ := exists_quote_eq_cons text
    refine ⟨contains_quote nonempty (fun c mem => (other c mem).1) lacks, fun c first => ?_⟩
    rw [Piece.text, shape, List.head?_cons, Option.mem_some] at first
    exact first ▸ mark
  | comment text =>
    refine ⟨?_, fun c first => ?_⟩
    · rw [Piece.text, Text.contains_cons_of_not_mem nonempty slash,
        Text.contains_cons_of_not_mem nonempty slash]
      exact lacks
    · rw [Piece.text, List.head?_cons, Option.mem_some] at first
      exact first ▸ slash

theorem contains_rowText {word : List Char} (foreign : Foreign word) {row : List Piece}
    (lacks : ∀ piece ∈ row, piece.Lacks word) :
    Text.contains word (rowText row) = false ∧ ∀ c ∈ (rowText row).head?, c ∉ word := by
  have newline : '\n' ∉ word := fun mem => (foreign.2 _ mem).2.2 rfl
  induction row with
  | nil =>
    refine ⟨?_, fun c first => ?_⟩
    · rw [rowText_nil, Text.contains_cons_of_not_mem foreign.1 newline]
      simpa [Text.contains] using foreign.1
    · rw [rowText_nil, List.head?_cons, Option.mem_some] at first
      exact first ▸ newline
  | cons piece row ih =>
    obtain ⟨own, first⟩ := (lacks piece (List.mem_cons_self ..)).contains_text foreign
    obtain ⟨rest, next⟩ := ih fun other mem => lacks other (List.mem_cons_of_mem _ mem)
    rw [rowText_cons]
    refine ⟨Text.contains_append_eq_false foreign.1 next own rest, fun c mem => ?_⟩
    cases shape : piece.text with
    | nil =>
      rw [shape] at mem
      exact next c mem
    | cons d text =>
      rw [shape] at mem first
      exact first c mem

/-- A word that occurs in no piece does not occur in the rows. -/
theorem contains_rows {word : List Char} (foreign : Foreign word) {rows : List (List Piece)}
    (lacks : ∀ row ∈ rows, ∀ piece ∈ row, piece.Lacks word) :
    Text.contains word (rows.flatMap rowText) = false := by
  have newline : '\n' ∉ word := fun mem => (foreign.2 _ mem).2.2 rfl
  induction rows with
  | nil => simpa [Text.contains] using foreign.1
  | cons row rows ih =>
    have own := (contains_rowText foreign (lacks row (List.mem_cons_self ..))).1
    have rest := ih fun other mem => lacks other (List.mem_cons_of_mem _ mem)
    have none : Text.contains word [] = false := by simpa [Text.contains] using foreign.1
    rw [rowText, Text.contains_append_cons foreign.1 newline, none, Bool.or_false] at own
    rw [List.flatMap_cons, rowText, List.append_assoc, List.singleton_append,
      Text.contains_append_cons foreign.1 newline, own, rest, Bool.false_or]

theorem withoutPlaceholders_eq_self {script : List Char}
    (absent : ∀ word ∈ placeholders, Text.contains word script = false) :
    withoutPlaceholders script = script := by
  unfold withoutPlaceholders
  generalize placeholders = words at absent
  induction words with
  | nil => rfl
  | cons word words ih =>
    rw [List.foldl_cons, Text.remove_eq_self (absent word (List.mem_cons_self ..)),
      ih fun other mem => absent other (List.mem_cons_of_mem _ mem)]

/-! ### Clean rows -/

/-- What cleaning leaves of a row. -/
def cleanRow (row : List Piece) : List Char := Text.tidied (rowText (row.filter Piece.isKept))

/-- Pieces that are kept and tidy already. -/
def Piece.IsSteady : Piece → Prop
  | .code text => '\n' ∉ text
  | .literal text => Text.Steady none text
  | .comment _ => False

theorem steady_pieces {row : List Piece} (steady : ∀ piece ∈ row, piece.IsSteady)
    (previous : Option Char) : Text.Steady previous (row.flatMap Piece.text) := by
  induction row generalizing previous with
  | nil => trivial
  | cons piece row ih =>
    have own := steady piece (List.mem_cons_self ..)
    have rest := ih fun other mem => steady other (List.mem_cons_of_mem _ mem)
    rw [List.flatMap_cons]
    refine Text.steady_append.mpr ⟨?_, rest _⟩
    cases piece with
    | code text => exact Text.steady_of_not_mem own
    | literal text => exact steady_quote own
    | comment text => exact own.elim

/-- A row that is tidy already stays as it is. -/
theorem cleanRow_of_steady {row : List Piece} (steady : ∀ piece ∈ row, piece.IsSteady)
    (solid : ∃ piece ∈ row.getLast?, Text.Solid piece.text) : cleanRow row = rowText row := by
  have kept : ∀ piece ∈ row, piece.isKept = true := by
    intro piece mem
    have own := steady piece mem
    cases piece with
    | code text => rfl
    | literal text => rfl
    | comment text => exact own.elim
  obtain ⟨c, last, visible⟩ : Text.Solid (row.flatMap Piece.text) := by
    obtain ⟨piece, last, solid⟩ := solid
    obtain ⟨start, rfl⟩ := List.getLast?_eq_some_iff.mp last
    simpa using solid.append_left (start.flatMap Piece.text)
  have whole : Text.Steady none (row.flatMap Piece.text ++ ['\n']) := by
    refine Text.steady_append.mpr ⟨steady_pieces steady none, fun _ => ⟨c, ?_, visible⟩, trivial⟩
    rw [Option.mem_def.mp last]
    rfl
  rw [cleanRow, List.filter_eq_self.mpr kept, rowText]
  exact Text.tidied_of_steady whole

theorem tidied_rows (rows : List (List Piece)) :
    Text.tidied (rows.flatMap rowText) = rows.flatMap fun row => Text.tidied (rowText row) := by
  induction rows with
  | nil => rfl
  | cons row rows ih =>
    rw [List.flatMap_cons, rowText, List.append_assoc, List.singleton_append, Text.tidied_append,
      ih, List.flatMap_cons, rowText]

/-- The lines of a tidy text are those that tidying leaves. -/
theorem tidyLines_append_newline {text : List Char} (some : Text.tidied text ≠ []) :
    tidyLines text ++ ['\n'] = Text.tidied text := by
  rw [Text.tidied] at some ⊢
  rw [tidyLines, Text.joinLines]
  refine Text.intercalate_append_newline fun none => some ?_
  rw [none]
  rfl

/-- Scripts are cleaned row by row, up to the last line end. -/
theorem clean_rows {rows : List (List Piece)} (cleans : ∀ row ∈ rows, Cleans row)
    (absent : ∀ word ∈ placeholders, ∀ row ∈ rows, ∀ piece ∈ row, piece.Lacks word)
    (some : rows.flatMap cleanRow ≠ []) :
    clean (rows.flatMap rowText) ++ ['\n'] = rows.flatMap cleanRow := by
  have kept : withoutNoise (rows.flatMap rowText) =
      (rows.map (·.filter Piece.isKept)).flatMap rowText := by
    rw [withoutNoise, withoutNoiseFrom_rows cleans (by decide), List.flatMap_map]
  have words : ∀ word ∈ placeholders,
      Text.contains word ((rows.map (·.filter Piece.isKept)).flatMap rowText) = false := by
    intro word mem
    have foreign : ∀ word ∈ placeholders, Foreign word := by decide
    refine contains_rows (foreign word mem) fun row hrow piece hpiece => ?_
    obtain ⟨original, horiginal, rfl⟩ := List.mem_map.mp hrow
    exact absent word mem original horiginal piece (List.mem_filter.mp hpiece).1
  have tidy : Text.tidied ((rows.map (·.filter Piece.isKept)).flatMap rowText) =
      rows.flatMap cleanRow := by
    rw [tidied_rows, List.flatMap_map]
    rfl
  rw [clean, kept, withoutPlaceholders_eq_self words, tidyLines_append_newline (tidy ▸ some), tidy]

end CiTranslate.Groovy

import Mathlib.Data.List.Infix
import CiTranslate.Groovy.Literal

/-!
Literals as they can be spelled.

What stands between the quotes of a literal is a list of characters and of escapes, which two rules
keep from closing it early: one for literals on one line, one for those between three quotes. Such a
literal is taken as a whole when steps are read (`quotedLength?_text`), whatever text follows it.
Cleaning measures a literal that is closed as reading does (`lineLength_eq_of_closedLine?`,
`blockLength_eq_of_closedBlock?`), so it passes over the literal as a whole
(`literalLength?_text`).
-/

namespace CiTranslate.Groovy

/-! ### Signs -/

/-- A character of a literal, or a backslash with the character that it takes along. -/
inductive Sign where
  | plain (c : Char)
  | escaped (c : Char)
  deriving DecidableEq, Repr

def Sign.text : Sign → List Char
  | .plain c => [c]
  | .escaped c => ['\\', c]

/-- The text that signs spell. -/
def spelled (signs : List Sign) : List Char := signs.flatMap Sign.text

@[simp] theorem spelled_nil : spelled [] = [] := rfl

@[simp] theorem spelled_plain (c : Char) (signs : List Sign) :
    spelled (.plain c :: signs) = c :: spelled signs := rfl

@[simp] theorem spelled_escaped (c : Char) (signs : List Sign) :
    spelled (.escaped c :: signs) = '\\' :: c :: spelled signs := rfl

@[simp] theorem spelled_append (signs more : List Sign) :
    spelled (signs ++ more) = spelled signs ++ spelled more :=
  List.flatMap_append

/-- Characters in a row that are no backslashes are signs of their own. -/
theorem prefix_of_prefix_spelled {c : Char} (plain : c ≠ '\\') {n : Nat} {signs : List Sign}
    (enough : n ≤ signs.length) {rest : List Char}
    (found : List.replicate n c <+: spelled signs ++ rest) :
    List.replicate n (.plain c) <+: signs := by
  induction n generalizing signs with
  | zero => exact List.nil_prefix
  | succ n ih =>
    cases signs with
    | nil => cases enough
    | cons sign signs =>
      have fewer : n ≤ signs.length := Nat.le_of_succ_le_succ enough
      cases sign with
      | plain d =>
        obtain ⟨rfl, later⟩ := List.cons_prefix_cons.mp found
        exact List.cons_prefix_cons.mpr ⟨rfl, ih fewer later⟩
      | escaped d => exact absurd (List.cons_prefix_cons.mp found).1 plain

/-! ### Literals -/

/-- What can stand between quotes on one line: each of these quotes and each backslash is escaped,
and there is no line end. -/
structure FitsLine (quote : Char) (body : List Sign) : Prop where
  quotes : .plain quote ∉ body
  slashes : .plain '\\' ∉ body
  lineEnds : .plain '\n' ∉ body ∧ .escaped '\n' ∉ body

/-- What can stand between three quotes: each backslash is escaped, and no three quotes stand in a
row before those that close the literal. -/
structure FitsBlock (quote : Char) (body : List Sign) : Prop where
  quotes : ¬List.replicate 3 (.plain quote) <:+: body ++ [.plain quote, .plain quote]
  slashes : .plain '\\' ∉ body

instance (quote : Char) (body : List Sign) : Decidable (FitsLine quote body) :=
  decidable_of_iff
    (.plain quote ∉ body ∧ .plain '\\' ∉ body ∧ .plain '\n' ∉ body ∧ .escaped '\n' ∉ body)
    ⟨fun h => ⟨h.1, h.2.1, h.2.2⟩, fun h => ⟨h.1, h.2, h.3⟩⟩

instance (quote : Char) (body : List Sign) : Decidable (FitsBlock quote body) :=
  decidable_of_iff
    (¬List.replicate 3 (.plain quote) <:+: body ++ [.plain quote, .plain quote] ∧
      .plain '\\' ∉ body)
    ⟨fun h => ⟨h.1, h.2⟩, fun h => ⟨h.1, h.2⟩⟩

/-- A closed literal. -/
inductive Literal where
  | line (quote : Char) (body : List Sign) (mark : isQuote quote = true)
      (fits : FitsLine quote body)
  | block (quote : Char) (body : List Sign) (mark : isQuote quote = true)
      (fits : FitsBlock quote body)

namespace Literal

def quote : Literal → Char
  | .line quote .. => quote
  | .block quote .. => quote

/-- Whether the literal stands between three quotes. -/
def isBlock : Literal → Bool
  | .line .. => false
  | .block .. => true

/-- The literal with its quotes. -/
def text : Literal → List Char
  | .line quote body .. => quote :: (spelled body ++ [quote])
  | .block quote body .. => quote :: quote :: quote :: (spelled body ++ [quote, quote, quote])

theorem text_line {quote : Char} {body : List Sign} (mark : isQuote quote = true)
    (fits : FitsLine quote body) :
    (line quote body mark fits).text = quote :: (spelled body ++ [quote]) := rfl

theorem text_block {quote : Char} {body : List Sign} (mark : isQuote quote = true)
    (fits : FitsBlock quote body) :
    (block quote body mark fits).text =
      quote :: quote :: quote :: (spelled body ++ [quote, quote, quote]) := rfl

theorem isQuote_quote (literal : Literal) : isQuote literal.quote = true := by
  cases literal with
  | line quote body mark fits => exact mark
  | block quote body mark fits => exact mark

theorem exists_text_eq_cons (literal : Literal) :
    ∃ rest, literal.text = literal.quote :: rest := by
  cases literal with
  | line quote body mark fits => exact ⟨_, rfl⟩
  | block quote body mark fits => exact ⟨_, rfl⟩

/-- Where no quote follows a literal, its own does not. -/
theorem head?_ne (literal : Literal) {rest : List Char}
    (next : ∀ c ∈ rest.head?, isQuote c = false) : rest.head? ≠ some literal.quote := by
  intro first
  have unquoted := next literal.quote first
  rw [literal.isQuote_quote] at unquoted
  cases unquoted

end Literal

theorem ne_slash_of_isQuote {quote : Char} (mark : isQuote quote = true) : quote ≠ '\\' := by
  rintro rfl
  cases mark

theorem ne_newline_of_isQuote {quote : Char} (mark : isQuote quote = true) : quote ≠ '\n' := by
  rintro rfl
  cases mark

/-! ### Three quotes -/

theorem startsTriple_iff {quote : Char} {text : List Char} :
    startsTriple quote text = true ↔ List.replicate 3 quote <+: text :=
  List.isPrefixOf_iff_prefix

theorem startsTriple_triple (quote : Char) (text : List Char) :
    startsTriple quote (quote :: quote :: quote :: text) = true := by
  simp [startsTriple, List.isPrefixOf]

/-- A literal on one line does not begin with three quotes. -/
theorem startsTriple_line {quote : Char} (mark : isQuote quote = true) {body : List Sign}
    (fits : FitsLine quote body) {rest : List Char} (next : rest.head? ≠ some quote) :
    startsTriple quote (quote :: (spelled body ++ quote :: rest)) = false := by
  refine Bool.eq_false_iff.mpr fun found => ?_
  obtain ⟨-, later⟩ := List.cons_prefix_cons.mp (startsTriple_iff.mp found)
  cases body with
  | nil =>
    obtain ⟨-, last⟩ := List.cons_prefix_cons.mp later
    obtain ⟨more, rfl⟩ := last
    exact next rfl
  | cons sign body =>
    have signs : spelled (sign :: body) ++ quote :: rest =
        spelled (sign :: body ++ [.plain quote]) ++ rest := by
      rw [spelled_append, List.append_assoc]
      rfl
    rw [signs] at later
    have own := prefix_of_prefix_spelled (ne_slash_of_isQuote mark) (n := 2) (by simp) later
    obtain ⟨rfl, -⟩ := List.cons_prefix_cons.mp own
    exact fits.quotes (List.mem_cons_self ..)

/-- A literal between three quotes begins with three, whatever follows. One on a line does not,
unless it is empty and the same quote follows. -/
theorem Literal.startsTriple_text (literal : Literal) {rest : List Char}
    (next : rest.head? ≠ some literal.quote) :
    startsTriple literal.quote (literal.text ++ rest) = literal.isBlock := by
  cases literal with
  | line quote body mark fits =>
    simpa [Literal.text, Literal.quote, Literal.isBlock] using startsTriple_line mark fits next
  | block quote body mark fits => exact startsTriple_triple quote _

/-- Three quotes in a row begin nowhere in a literal between three quotes. -/
theorem startsTriple_block {quote : Char} (mark : isQuote quote = true) {c : Char}
    {body : List Sign} (fits : FitsBlock quote (.plain c :: body)) (rest : List Char) :
    startsTriple quote (c :: (spelled body ++ quote :: quote :: quote :: rest)) = false := by
  refine Bool.eq_false_iff.mpr fun found => fits.quotes ?_
  have signs : c :: (spelled body ++ quote :: quote :: quote :: rest) =
      spelled (.plain c :: body ++ [.plain quote, .plain quote]) ++ quote :: rest := by simp
  have whole := startsTriple_iff.mp found
  rw [signs] at whole
  exact (prefix_of_prefix_spelled (ne_slash_of_isQuote mark) (by simp) whole).isInfix

theorem FitsLine.tail {quote : Char} {sign : Sign} {body : List Sign}
    (fits : FitsLine quote (sign :: body)) : FitsLine quote body where
  quotes mem := fits.quotes (List.mem_cons_of_mem _ mem)
  slashes mem := fits.slashes (List.mem_cons_of_mem _ mem)
  lineEnds := ⟨fun mem => fits.lineEnds.1 (List.mem_cons_of_mem _ mem),
    fun mem => fits.lineEnds.2 (List.mem_cons_of_mem _ mem)⟩

theorem FitsBlock.tail {quote : Char} {sign : Sign} {body : List Sign}
    (fits : FitsBlock quote (sign :: body)) : FitsBlock quote body where
  quotes found := fits.quotes (List.infix_cons found)
  slashes mem := fits.slashes (List.mem_cons_of_mem _ mem)

theorem FitsLine.head {quote c : Char} {body : List Sign}
    (fits : FitsLine quote (.plain c :: body)) : c ≠ quote ∧ c ≠ '\\' ∧ c ≠ '\n' := by
  refine ⟨?_, ?_, ?_⟩
  · rintro rfl
    exact fits.quotes (List.mem_cons_self ..)
  · rintro rfl
    exact fits.slashes (List.mem_cons_self ..)
  · rintro rfl
    exact fits.lineEnds.1 (List.mem_cons_self ..)

theorem FitsBlock.head {quote c : Char} {body : List Sign}
    (fits : FitsBlock quote (.plain c :: body)) : c ≠ '\\' := by
  rintro rfl
  exact fits.slashes (List.mem_cons_self ..)

theorem FitsLine.escaped_ne {quote c : Char} {body : List Sign}
    (fits : FitsLine quote (.escaped c :: body)) : c ≠ '\n' := by
  rintro rfl
  exact fits.lineEnds.2 (List.mem_cons_self ..)

/-! ### Literals that are taken -/

theorem closedLine?_cons {c quote : Char} (plain : c ≠ '\\') (text : List Char) :
    closedLine? quote (c :: text) =
      if c == '\n' then none else if c == quote then some 1
      else (closedLine? quote text).map (· + 1) := by
  rw [closedLine?]
  · simp [plain]
  · rintro _ _ rfl
    exact absurd rfl plain

theorem closedBlock?_cons {c quote : Char} (plain : c ≠ '\\') (text : List Char) :
    closedBlock? quote (c :: text) =
      if startsTriple quote (c :: text) then some 3
      else (closedBlock? quote text).map (· + 1) := by
  rw [closedBlock?]
  · simp [plain]
  · rintro _ _ rfl
    exact absurd rfl plain

theorem closedLine?_spelled {quote : Char} (mark : isQuote quote = true) {body : List Sign}
    (fits : FitsLine quote body) (rest : List Char) :
    closedLine? quote (spelled body ++ quote :: rest) = some ((spelled body).length + 1) := by
  induction body with
  | nil =>
    rw [spelled_nil, List.nil_append, closedLine?_cons (ne_slash_of_isQuote mark)]
    simp [ne_newline_of_isQuote mark]
  | cons sign body ih =>
    have later := ih fits.tail
    cases sign with
    | plain c =>
      obtain ⟨quotes, slash, newline⟩ := fits.head
      rw [spelled_plain, List.cons_append, closedLine?_cons slash, later]
      simp [newline, quotes]
    | escaped c =>
      rw [spelled_escaped, List.cons_append, List.cons_append, closedLine?, later]
      simp [fits.escaped_ne]

theorem closedBlock?_spelled {quote : Char} (mark : isQuote quote = true) {body : List Sign}
    (fits : FitsBlock quote body) (rest : List Char) :
    closedBlock? quote (spelled body ++ quote :: quote :: quote :: rest) =
      some ((spelled body).length + 3) := by
  induction body with
  | nil =>
    rw [spelled_nil, List.nil_append, closedBlock?_cons (ne_slash_of_isQuote mark),
      startsTriple_triple]
    rfl
  | cons sign body ih =>
    have later := ih fits.tail
    cases sign with
    | plain c =>
      rw [spelled_plain, List.cons_append, closedBlock?_cons fits.head,
        startsTriple_block mark fits, later]
      rfl
    | escaped c =>
      rw [spelled_escaped, List.cons_append, List.cons_append, closedBlock?, later]
      rfl

/-- Reading takes a closed literal, unless a quote that follows makes it begin with three. -/
theorem quotedLength?_of_startsTriple (literal : Literal) {rest : List Char}
    (opening : startsTriple literal.quote (literal.text ++ rest) = literal.isBlock) :
    quotedLength? (literal.text ++ rest) = some literal.text.length := by
  cases literal with
  | line quote body mark fits =>
    simp only [Literal.text, Literal.quote, Literal.isBlock, List.cons_append, List.append_assoc,
      List.nil_append] at opening ⊢
    simp [quotedLength?, mark, opening, closedLine?_spelled mark fits]
  | block quote body mark fits =>
    simp [Literal.text, quotedLength?, mark, startsTriple_triple,
      closedBlock?_spelled mark fits]

/-- Reading takes a closed literal, and no more. -/
theorem quotedLength?_text (literal : Literal) {rest : List Char}
    (next : rest.head? ≠ some literal.quote) :
    quotedLength? (literal.text ++ rest) = some literal.text.length :=
  quotedLength?_of_startsTriple literal (literal.startsTriple_text next)

/-! ### Literals that are passed over -/

/-- A literal that is closed on its line is passed over up to its closing quote. -/
theorem lineLength_eq_of_closedLine? {quote : Char} {text : List Char} {length : Nat}
    (closed : closedLine? quote text = some length) : lineLength quote text = length := by
  induction text using closedLine?.induct quote generalizing length with
  | case1 => cases closed
  | case2 c text newline =>
    rw [closedLine?, if_pos newline] at closed
    cases closed
  | case3 c text other ih =>
    rw [closedLine?, if_neg other] at closed
    obtain ⟨rest, found, rfl⟩ := Option.map_eq_some_iff.mp closed
    rw [lineLength, ih found]
  | case4 c text single stop =>
    rw [closedLine?, if_pos stop] at closed
    · cases closed
    · exact single
  | case5 c text single other own =>
    have plain : c ≠ '\\' := fun slash => other (by simp [slash])
    have inside : ¬(c == '\n') = true := fun newline => other (by simp [newline])
    rw [closedLine?_cons plain, if_neg inside, if_pos own] at closed
    cases closed
    rw [lineLength, if_neg inside, if_pos own]
    exact single
  | case6 c text single other differ ih =>
    have plain : c ≠ '\\' := fun slash => other (by simp [slash])
    have inside : ¬(c == '\n') = true := fun newline => other (by simp [newline])
    rw [closedLine?_cons plain, if_neg inside, if_neg differ] at closed
    obtain ⟨rest, found, rfl⟩ := Option.map_eq_some_iff.mp closed
    rw [lineLength, if_neg inside, if_neg differ, ih found]
    exact single

/-- A literal that is closed by three quotes is passed over up to these. -/
theorem blockLength_eq_of_closedBlock? {quote : Char} {text : List Char} {length : Nat}
    (closed : closedBlock? quote text = some length) : blockLength quote text = length := by
  induction text using closedBlock?.induct quote generalizing length with
  | case1 => cases closed
  | case2 c text ih =>
    rw [closedBlock?] at closed
    obtain ⟨rest, found, rfl⟩ := Option.map_eq_some_iff.mp closed
    rw [blockLength, ih found]
  | case3 c text single triple =>
    rw [closedBlock?, if_pos triple] at closed
    · cases closed
      rw [blockLength, if_pos triple]
      exact single
    · exact single
  | case4 c text single other slash =>
    rw [closedBlock?, if_neg other, if_pos slash] at closed
    · cases closed
    · exact single
  | case5 c text single other differ ih =>
    rw [closedBlock?_cons (ne_of_beq_false (Bool.eq_false_iff.mpr differ)), if_neg other] at closed
    obtain ⟨rest, found, rfl⟩ := Option.map_eq_some_iff.mp closed
    rw [blockLength, if_neg other, ih found]
    exact single

/-- Cleaning passes over a closed literal, unless a quote that follows makes it begin with three. -/
theorem literalLength?_of_startsTriple (literal : Literal) {rest : List Char}
    (opening : startsTriple literal.quote (literal.text ++ rest) = literal.isBlock) :
    literalLength? (literal.text ++ rest) = some literal.text.length := by
  cases literal with
  | line quote body mark fits =>
    have length := lineLength_eq_of_closedLine? (closedLine?_spelled mark fits rest)
    simp only [Literal.text, Literal.quote, Literal.isBlock, List.cons_append, List.append_assoc,
      List.nil_append] at opening ⊢
    simp [literalLength?, mark, opening, length]
  | block quote body mark fits =>
    have length := blockLength_eq_of_closedBlock? (closedBlock?_spelled mark fits rest)
    simp [Literal.text, literalLength?, mark, startsTriple_triple, length]

/-- Cleaning passes over a closed literal, and no further. -/
theorem literalLength?_text (literal : Literal) {rest : List Char}
    (next : rest.head? ≠ some literal.quote) :
    literalLength? (literal.text ++ rest) = some literal.text.length :=
  literalLength?_of_startsTriple literal (literal.startsTriple_text next)

end CiTranslate.Groovy

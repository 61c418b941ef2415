import CiTranslate.Proofs.Groovy.Spelling
import CiTranslate.Proofs.Text.Lines
import CiTranslate.Proofs.Text.Search

/-!
Literals that were written end where they are measured to end.

Cleaning and reading measure a literal in two ways. Both find the closing quotes of a literal
that was written (`literalLength?_quote`, `quotedLength?_quote`), whatever the text in it, and
the literal stands for that text (`unquote_quote`).
-/

namespace CiTranslate.Groovy

/-- The characters that are escaped in a literal. -/
def isEscaped (c : Char) : Bool := c == '\\' || c == '\''

/-! ### Escapes -/

@[simp] theorem escape_nil : escape [] = [] := rfl

theorem escape_cons_of_escaped {c : Char} (escaped : isEscaped c = true) (text : List Char) :
    escape (c :: text) = '\\' :: c :: escape text :=
  if_pos escaped

theorem escape_cons_of_not_escaped {c : Char} (plain : isEscaped c = false) (text : List Char) :
    escape (c :: text) = c :: escape text :=
  if_neg (by simpa [isEscaped] using plain)

theorem ne_of_not_isEscaped {c : Char} (plain : isEscaped c = false) : c ≠ '\\' ∧ c ≠ '\'' := by
  simpa [isEscaped] using plain

theorem unescape_cons {c : Char} (plain : c ≠ '\\') (text : List Char) :
    unescape (c :: text) = c :: unescape text := by
  rw [unescape]
  rintro _ _ rfl
  exact absurd rfl plain

/-- A text without characters that are escaped stays as it is. -/
theorem escape_eq_self {text : List Char} (plain : ∀ c ∈ text, isEscaped c = false) :
    escape text = text := by
  induction text with
  | nil => rfl
  | cons c text ih =>
    rw [escape_cons_of_not_escaped (plain c (List.mem_cons_self ..)),
      ih fun d mem => plain d (List.mem_cons_of_mem _ mem)]

theorem length_le_length_escape (text : List Char) : text.length ≤ (escape text).length := by
  induction text with
  | nil => exact Nat.le_refl 0
  | cons c text ih =>
    cases escaped : isEscaped c with
    | true =>
      rw [escape_cons_of_escaped escaped, List.length_cons, List.length_cons, List.length_cons]
      omega
    | false =>
      rw [escape_cons_of_not_escaped escaped, List.length_cons, List.length_cons]
      omega

theorem escape_eq_self_iff {text : List Char} :
    escape text = text ↔ ∀ c ∈ text, isEscaped c = false := by
  constructor
  · intro same
    induction text with
    | nil => exact fun _ mem => nomatch mem
    | cons c text ih =>
      cases escaped : isEscaped c with
      | true =>
        rw [escape_cons_of_escaped escaped] at same
        have lengths := congrArg List.length same
        have longer := length_le_length_escape text
        simp only [List.length_cons] at lengths
        omega
      | false =>
        rw [escape_cons_of_not_escaped escaped] at same
        exact List.forall_mem_cons.mpr ⟨escaped, ih (List.cons.inj same).2⟩
  · exact escape_eq_self

/-- Only backslashes are added. -/
theorem mem_of_mem_escape {c : Char} {text : List Char} (mem : c ∈ escape text) :
    c ∈ text ∨ c = '\\' := by
  induction text with
  | nil => cases mem
  | cons d text ih =>
    cases escaped : isEscaped d with
    | true =>
      rw [escape_cons_of_escaped escaped] at mem
      rcases List.mem_cons.mp mem with slash | mem
      · exact .inr slash
      · rcases List.mem_cons.mp mem with rfl | later
        · exact .inl (List.mem_cons_self ..)
        · exact (ih later).imp_left (List.mem_cons_of_mem _)
    | false =>
      rw [escape_cons_of_not_escaped escaped] at mem
      rcases List.mem_cons.mp mem with rfl | later
      · exact .inl (List.mem_cons_self ..)
      · exact (ih later).imp_left (List.mem_cons_of_mem _)

/-- Escapes are resolved exactly. -/
theorem unescape_escape (text : List Char) : unescape (escape text) = text := by
  induction text with
  | nil => rfl
  | cons c text ih =>
    cases escaped : isEscaped c with
    | true =>
      have resolved : (c == '\\' || isQuote c) = true := by
        rcases Bool.or_eq_true_iff.mp escaped with slash | quote
        · simp [slash]
        · simp [isQuote, quote]
      rw [escape_cons_of_escaped escaped, unescape, if_pos resolved, ih]
    | false =>
      rw [escape_cons_of_not_escaped escaped, unescape_cons (ne_of_not_isEscaped escaped).1, ih]

/-! ### Signs of a text -/

/-- The signs with which a text is written. -/
def signsOf (text : List Char) : List Sign :=
  text.map fun c => if isEscaped c then .escaped c else .plain c

theorem spelled_signsOf (text : List Char) : spelled (signsOf text) = escape text := by
  induction text with
  | nil => rfl
  | cons c text ih =>
    rw [signsOf, List.map_cons, ← signsOf]
    cases escaped : isEscaped c with
    | true => rw [if_pos rfl, spelled_escaped, ih, escape_cons_of_escaped escaped]
    | false =>
      rw [if_neg Bool.false_ne_true, spelled_plain, ih, escape_cons_of_not_escaped escaped]

theorem plain_not_mem_signsOf {c : Char} (escaped : isEscaped c = true) (text : List Char) :
    .plain c ∉ signsOf text := by
  intro mem
  obtain ⟨d, -, same⟩ := List.mem_map.mp mem
  split at same
  · cases same
  · next plain =>
    cases same
    exact plain escaped

theorem mem_of_mem_signsOf {c : Char} {text : List Char}
    (mem : .plain c ∈ signsOf text ∨ .escaped c ∈ signsOf text) : c ∈ text := by
  have own {sign : Sign} (found : sign ∈ signsOf text) :
      ∃ d ∈ text, sign = .escaped d ∨ sign = .plain d := by
    obtain ⟨d, inside, rfl⟩ := List.mem_map.mp found
    refine ⟨d, inside, ?_⟩
    split
    · exact .inl rfl
    · exact .inr rfl
  rcases mem with found | found
  · obtain ⟨d, inside, same | same⟩ := own found
    · cases same
    · cases same
      exact inside
  · obtain ⟨d, inside, same | same⟩ := own found
    · cases same
      exact inside
    · cases same

theorem fitsLine_signsOf {text : List Char} (oneLine : '\n' ∉ text) :
    FitsLine '\'' (signsOf text) where
  quotes := plain_not_mem_signsOf rfl text
  slashes := plain_not_mem_signsOf rfl text
  lineEnds := ⟨fun mem => oneLine (mem_of_mem_signsOf (.inl mem)),
    fun mem => oneLine (mem_of_mem_signsOf (.inr mem))⟩

theorem fitsBlock_signsOf (text : List Char) : FitsBlock '\'' (signsOf text) where
  quotes found := by
    have absent := List.count_eq_zero.mpr (plain_not_mem_signsOf (c := '\'') rfl text)
    have many := List.replicate_sublist_iff.mp found.sublist
    rw [List.count_append, absent] at many
    simp at many
  slashes := plain_not_mem_signsOf rfl text

/-! ### Literals that were written -/

theorem quote_of_line {text : List Char} (oneLine : '\n' ∉ text) :
    quote text = '\'' :: (escape text ++ ['\'']) := by
  simp [quote, oneLine]

theorem quote_of_block {text : List Char} (newline : '\n' ∈ text) :
    quote text = '\'' :: '\'' :: '\'' :: (escape text ++ ['\'', '\'', '\'']) := by
  simp [quote, newline]

theorem exists_quote_eq_cons (text : List Char) : ∃ rest, quote text = '\'' :: rest := by
  by_cases newline : '\n' ∈ text
  · exact ⟨_, quote_of_block newline⟩
  · exact ⟨_, quote_of_line newline⟩

@[simp] theorem getLast?_quote (text : List Char) : (quote text).getLast? = some '\'' := by
  by_cases newline : '\n' ∈ text
  · simp [quote_of_block newline, List.getLast?_cons]
  · simp [quote_of_line newline, List.getLast?_cons]

theorem solid_quote (text : List Char) : Text.Solid (quote text) :=
  ⟨'\'', getLast?_quote text, by decide⟩

/-- The literal with which a text is written. -/
theorem exists_literal_quote (text : List Char) :
    ∃ literal : Literal, literal.quote = '\'' ∧ literal.text = quote text := by
  have mark : isQuote '\'' = true := rfl
  by_cases newline : '\n' ∈ text
  · refine ⟨.block '\'' (signsOf text) mark (fitsBlock_signsOf text), rfl, ?_⟩
    rw [Literal.text_block, spelled_signsOf, quote_of_block newline]
  · refine ⟨.line '\'' (signsOf text) mark (fitsLine_signsOf newline), rfl, ?_⟩
    rw [Literal.text_line, spelled_signsOf, quote_of_line newline]

/-- Cleaning passes over a literal that was written, and no further. -/
theorem literalLength?_quote (text : List Char) {rest : List Char}
    (next : rest.head? ≠ some '\'') :
    literalLength? (quote text ++ rest) = some (quote text).length := by
  obtain ⟨literal, mark, same⟩ := exists_literal_quote text
  rw [← same]
  exact literalLength?_text literal (mark ▸ next)

/-- Reading takes a literal that was written, and no more. -/
theorem quotedLength?_quote (text : List Char) {rest : List Char}
    (next : rest.head? ≠ some '\'') :
    quotedLength? (quote text ++ rest) = some (quote text).length := by
  obtain ⟨literal, mark, same⟩ := exists_literal_quote text
  rw [← same]
  exact quotedLength?_text literal (mark ▸ next)

/-- A literal that was written stands for its text. -/
theorem unquote_quote (text : List Char) : unquote (quote text) = text := by
  have body : inner (quote text) = escape text := by
    by_cases newline : '\n' ∈ text
    · rw [quote_of_block newline]
      simp [inner, startsTriple_triple]
    · have last : ([] : List Char).head? ≠ some '\'' := by simp
      have single := startsTriple_line rfl (fitsLine_signsOf newline) last
      rw [spelled_signsOf] at single
      rw [quote_of_line newline]
      simp [inner, single]
  rw [unquote, body, unescape_escape]

/-! ### Words and lines in literals -/

theorem isPrefixOf_escape {word : List Char} (foreign : ∀ c ∈ word, isEscaped c = false)
    (text : List Char) : word.isPrefixOf (escape text) = word.isPrefixOf text := by
  induction word generalizing text with
  | nil => cases text <;> rfl
  | cons w word ih =>
    have plain := ne_of_not_isEscaped (foreign w (List.mem_cons_self ..))
    cases text with
    | nil => rfl
    | cons c text =>
      cases escaped : isEscaped c with
      | true =>
        have differ : w ≠ c := by
          rintro rfl
          rw [foreign w (List.mem_cons_self ..)] at escaped
          cases escaped
        rw [escape_cons_of_escaped escaped, List.isPrefixOf, List.isPrefixOf,
          beq_false_of_ne plain.1, beq_false_of_ne differ]
        rfl
      | false =>
        rw [escape_cons_of_not_escaped escaped, List.isPrefixOf, List.isPrefixOf,
          ih fun d mem => foreign d (List.mem_cons_of_mem _ mem)]

/-- A word without escaped characters occurs in an escaped text where it occurs in the text. -/
theorem contains_escape {word : List Char} (nonempty : word ≠ [])
    (foreign : ∀ c ∈ word, isEscaped c = false) (text : List Char) :
    Text.contains word (escape text) = Text.contains word text := by
  induction text with
  | nil => rfl
  | cons c text ih =>
    cases escaped : isEscaped c with
    | true =>
      have slash : '\\' ∉ word := fun mem => nomatch foreign _ mem
      have self : c ∉ word := fun mem => by
        rw [foreign c mem] at escaped
        cases escaped
      rw [escape_cons_of_escaped escaped, Text.contains_cons_of_not_mem nonempty slash,
        Text.contains_cons_of_not_mem nonempty self, Text.contains_cons_of_not_mem nonempty self,
        ih]
    | false =>
      rw [escape_cons_of_not_escaped escaped, Text.contains, Text.contains, ih,
        ← escape_cons_of_not_escaped escaped, isPrefixOf_escape foreign]

theorem contains_quote {word text : List Char} (nonempty : word ≠ [])
    (foreign : ∀ c ∈ word, isEscaped c = false) (absent : Text.contains word text = false) :
    Text.contains word (quote text) = false := by
  have mark : '\'' ∉ word := fun mem => nomatch foreign _ mem
  have none : Text.contains word [] = false := by
    simpa [Text.contains] using nonempty
  by_cases newline : '\n' ∈ text
  · rw [quote_of_block newline]
    simp only [Text.contains_cons_of_not_mem nonempty mark,
      Text.contains_append_cons nonempty mark, contains_escape nonempty foreign, absent, none,
      Bool.or_false]
  · rw [quote_of_line newline]
    simp only [Text.contains_cons_of_not_mem nonempty mark,
      Text.contains_append_cons nonempty mark, contains_escape nonempty foreign, absent, none,
      Bool.or_false]

/-- Escapes stand before no line feed. -/
theorem steady_escape_iff {previous : Option Char} {text : List Char} :
    Text.Steady previous (escape text) ↔ Text.Steady previous text := by
  induction text generalizing previous with
  | nil => rfl
  | cons c text ih =>
    cases escaped : isEscaped c with
    | true =>
      have other : c ≠ '\n' := by
        rintro rfl
        cases escaped
      rw [escape_cons_of_escaped escaped]
      simp [Text.Steady, ih, other]
    | false => rw [escape_cons_of_not_escaped escaped, Text.Steady, Text.Steady, ih]

/-- The literal of a text is steady when the text is after the mark before it. -/
theorem steady_quote_iff {previous : Option Char} {text : List Char} :
    Text.Steady previous (quote text) ↔ Text.Steady (some '\'') text := by
  by_cases newline : '\n' ∈ text
  · have marks (last : Option Char) : Text.Steady last ['\'', '\'', '\''] :=
      Text.steady_of_not_mem (by decide)
    rw [quote_of_block newline, Text.Steady, Text.Steady, Text.Steady, Text.steady_append,
      steady_escape_iff]
    simp [marks]
  · have mark (last : Option Char) : Text.Steady last ['\''] := Text.steady_of_not_mem (by decide)
    rw [quote_of_line newline, Text.Steady, Text.steady_append, steady_escape_iff]
    simp [mark]

/-- The literal of a steady text is steady. -/
theorem steady_quote {previous : Option Char} {text : List Char} (steady : Text.Steady none text) :
    Text.Steady previous (quote text) :=
  steady_quote_iff.mpr steady.of_none

end CiTranslate.Groovy

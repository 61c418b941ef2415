import CiTranslate.Proofs.Decimal
import CiTranslate.Proofs.Text.Offset
import CiTranslate.Proofs.Text.Search
import CiTranslate.Proofs.Yaml.Block
import CiTranslate.Proofs.Yaml.Plain

/-!
What the style of a written text promises to its reader.

A plain text is a word wherever a token may start (`PlainWord`), and so are the numbers that are
written. Single quotes hold no line end that would be folded (`singleFrom_of_styleOf`), and a
literal block holds at least a line end.
-/

namespace CiTranslate.Yaml

/-! ### Neighbours -/

theorem anyNeighbours_eq_false {p q : Char → Char → Bool} {text : List Char}
    (implies : ∀ c d, p c d = true → q c d = true) (none : anyNeighbours q text = false) :
    anyNeighbours p text = false := by
  induction text with
  | nil => rfl
  | cons c text ih =>
    rw [anyNeighbours_cons, Bool.or_eq_false_iff] at none ⊢
    refine ⟨?_, ih none.2⟩
    cases text with
    | nil => rfl
    | cons d text =>
      exact Bool.eq_false_iff.mpr fun pair => Bool.eq_false_iff.mp none.1 (implies c d pair)

/-- Characters of one kind have no neighbours of another. -/
theorem anyNeighbours_of_all {p : Char → Char → Bool} {text : List Char}
    (none : ∀ c ∈ text, ∀ d, p c d = false) : anyNeighbours p text = false := by
  induction text with
  | nil => rfl
  | cons c text ih =>
    rw [anyNeighbours_cons, ih fun d mem => none d (List.mem_cons_of_mem _ mem), Bool.or_false]
    cases text with
    | nil => rfl
    | cons d text => exact none c (List.mem_cons_self ..) d

theorem tab_not_mem {text : List Char} (clean : needsEscapes text = false) : '\t' ∉ text := by
  intro mem
  simp only [needsEscapes, Bool.or_eq_false_iff, List.any_eq_false] at clean
  exact absurd (clean.1 '\t' mem) (by decide)

/-! ### Plain texts -/

/-- A text that is read as one plain scalar wherever a token may start. -/
structure PlainWord (text : List Char) : Prop extends PlainFrom text where
  starts : StartsWord text
  first : ∀ c ∈ text.head?, isFirstIndicator c = false ∧ c ≠ byteOrderMark
  second : ∀ c ∈ text.head?, c = '-' ∨ c = '?' → atBlankOrEnd text.tail = false
  unmarked : Cursor.Unmarked text

theorem plainWord_of_plainHolds {text : List Char} (filled : text ≠ [])
    (holds : plainHolds text = true) : PlainWord text := by
  simp only [plainHolds, Bool.and_eq_true, Bool.not_eq_true', hasOuterBlank, hasIndicators,
    Bool.or_eq_false_iff] at holds
  obtain ⟨⟨⟨clean, outerFirst, outerLast⟩, line⟩, ⟨⟨⟨hyphens, dots⟩, start⟩, colon⟩, pairs⟩ := holds
  obtain ⟨c, rest, rfl⟩ := List.exists_cons_of_ne_nil filled
  simp only [Bool.or_eq_false_iff] at start
  have noBlank : c ≠ ' ' := by
    rintro rfl
    simp at outerFirst
  have noHash : c ≠ '#' := by
    rintro rfl
    simp [isFirstIndicator] at start
  refine ⟨⟨fun d mem => ⟨?_, ?_⟩, anyNeighbours_eq_false (fun c d pair => ?_) pairs,
    anyNeighbours_eq_false (fun c d pair => ?_) pairs, fun d last => ?_⟩,
    ⟨c, rest, rfl, noBlank, noHash⟩, fun d first => ?_, fun d first sign => ?_, ?_, ?_⟩
  · simpa using List.any_eq_false.mp line d mem
  · rintro rfl
    exact tab_not_mem clean mem
  · simp [pair]
  · simp [pair]
  · rw [Option.mem_def] at last
    rw [last] at colon outerLast
    refine ⟨by simpa using colon, ?_⟩
    rintro rfl
    simp at outerLast
  · obtain rfl : c = d := by simpa using first
    refine ⟨start.1, ?_⟩
    rintro rfl
    simp only [needsEscapes, Bool.or_eq_false_iff, List.any_eq_false] at clean
    exact absurd (clean.1 _ (List.mem_cons_self ..)) (by decide)
  · obtain rfl : c = d := by simpa using first
    have closed := start.2
    rcases sign with rfl | rfl <;> simpa using closed
  · rw [← List.isPrefixOf_iff_prefix, hyphens]
    exact Bool.false_ne_true
  · rw [← List.isPrefixOf_iff_prefix, dots]
    exact Bool.false_ne_true

theorem atBlankOrEnd_append {text : List Char} (visible : atBlankOrEnd text = false)
    (after : List Char) : atBlankOrEnd (text ++ after) = false := by
  cases text with
  | nil => cases visible
  | cons c text => exact visible

/-- What would be a mark in front of a blank stands in front of something else. -/
theorem PlainWord.mark {c : Char} {text : List Char} (word : PlainWord (c :: text))
    (mark : c = '-' ∨ c = '?' ∨ c = ':') : atBlankOrEnd text = false := by
  rcases mark with rfl | rfl | rfl
  · exact word.second _ rfl (.inl rfl)
  · exact word.second _ rfl (.inr rfl)
  · cases text with
    | nil => exact absurd rfl (word.last ':' rfl).1
    | cons d text =>
      have pair := word.colons
      rw [anyNeighbours, Bool.or_eq_false_iff] at pair
      simpa [atBlankOrEnd_cons] using pair.1

/-- Whatever follows a word on its line, the line does not start with the mark of a document. -/
theorem PlainWord.unmarked_append {text : List Char} (word : PlainWord text) {after : List Char}
    (ends : EndsWord after) : Cursor.Unmarked (text ++ after) := by
  have filled : text ≠ [] := by
    obtain ⟨c, rest, rfl, -⟩ := word.starts
    exact List.cons_ne_nil _ _
  have foreign : ∀ d ∈ after.head?, d ≠ '-' ∧ d ≠ '.' := by
    intro d mem
    rcases after with _ | ⟨e, after⟩
    · cases mem
    · obtain rfl : e = d := by simpa using mem
      rcases ends with blank | ⟨rest, shape, -⟩
      · rw [atBlankOrEnd_cons] at blank
        constructor <;> rintro rfl <;> exact absurd blank (by decide)
      · cases shape
        decide
  have absent (c : Char) (other : ∀ d ∈ after.head?, d ≠ c) (none : ¬[c, c, c] <+: text) :
      ¬[c, c, c] <+: text ++ after := by
    rw [← List.isPrefixOf_iff_prefix,
      Text.isPrefixOf_append_eq_false filled none fun d mem => by simp [other d mem]]
    exact Bool.false_ne_true
  exact ⟨absent '-' (fun d mem => (foreign d mem).1) word.unmarked.1,
    absent '.' (fun d mem => (foreign d mem).2) word.unmarked.2⟩

/-! ### Numbers and words -/

/-- The characters of numbers, and of the words for doubles that are none. -/
def isNumberChar (c : Char) : Bool :=
  c.isDigit || ['.', 'e', '+', '-', 'i', 'n', 'f', 'a'].contains c

theorem isNumberChar_cases {c : Char} (number : isNumberChar c = true) :
    isBlankOrBreak c = false ∧ isFirstIndicator c = false ∧ c ≠ ':' ∧ c ≠ '?' ∧
      c ≠ byteOrderMark := by
  have foreign (other : List Char) (none : ∀ d ∈ other, isNumberChar d = false) : c ∉ other := by
    intro mem
    rw [none c mem] at number
    cases number
  have tick : c.toNat ≠ 0x60 := by
    intro code
    rw [ofNat_toNat_of_eq code] at number
    exact absurd number (by decide)
  have blanks := foreign
    [' ', '\t', '\r', '\n', nextLine, lineSeparator, paragraphSeparator] (by decide)
  have marks := foreign "#,[]\x7b\x7d&*!|>'\"%@".toList (by decide)
  have others := foreign [':', '?', byteOrderMark] (by decide)
  simp only [List.mem_cons, List.not_mem_nil, or_false, not_or] at blanks others
  obtain ⟨b1, b2, b3, b4, b5, b6, b7⟩ := blanks
  refine ⟨by simp [isBlankOrBreak, isSpaceOrTab, isBreak, b1, b2, b3, b4, b5, b6, b7], ?_, others⟩
  rw [isFirstIndicator, Bool.or_eq_false_iff]
  exact ⟨by simpa using marks, by simpa using tick⟩

/-- A number is a word if a digit comes first, perhaps after a sign. -/
theorem plainWord_of_number {sign : List Char} (signed : sign = [] ∨ sign = ['-']) {c : Char}
    {rest : List Char} (digit : c.isDigit = true) (all : ∀ d ∈ c :: rest, isNumberChar d = true) :
    PlainWord (sign ++ c :: rest) := by
  have minus : isNumberChar '-' = true := by decide
  have number : ∀ d ∈ sign ++ c :: rest, isNumberChar d = true := by
    rcases signed with rfl | rfl
    · exact all
    · exact List.forall_mem_cons.mpr ⟨minus, all⟩
  have other {d : Char} (symbol : d.isDigit = false) : c ≠ d := by
    rintro rfl
    rw [digit] at symbol
    cases symbol
  have kinds := fun d mem => isNumberChar_cases (number d mem)
  have noTab {d : Char} (visible : isBlankOrBreak d = false) : d ≠ '\t' := by
    rintro rfl
    cases visible
  have noBlank {d : Char} (visible : isBlankOrBreak d = false) : d ≠ ' ' := by
    rintro rfl
    cases visible
  have filled : sign ++ c :: rest ≠ [] :=
    List.append_ne_nil_of_right_ne_nil _ (List.cons_ne_nil _ _)
  refine ⟨⟨fun d mem => ⟨(not_isBlankOrBreak (kinds d mem).1).2, noTab (kinds d mem).1⟩,
    anyNeighbours_of_all fun d mem e => by simp [(kinds d mem).2.2.1],
    anyNeighbours_of_all fun d mem e => by simp [(kinds d mem).1], fun d last => ?_⟩,
    ?_, fun d first => ?_, fun d first => ?_, ?_⟩
  · have mem := List.mem_of_getLast? last
    exact ⟨(kinds d mem).2.2.1, noBlank (kinds d mem).1⟩
  · rcases signed with rfl | rfl
    · exact ⟨c, rest, rfl, other (by decide), other (by decide)⟩
    · exact ⟨'-', c :: rest, rfl, by decide, by decide⟩
  · have kind := kinds d (List.mem_of_mem_head? first)
    exact ⟨kind.2.1, kind.2.2.2.2⟩
  · rcases signed with rfl | rfl
    · obtain rfl : c = d := by simpa using first
      rintro (rfl | rfl) <;> cases digit
    · intro _
      exact (isNumberChar_cases (all c (List.mem_cons_self ..))).1
  · have hyphen := other (d := '-') (by decide)
    have dot := other (d := '.') (by decide)
    rcases signed with rfl | rfl
    · exact ⟨fun start => hyphen (List.cons_prefix_cons.mp start).1.symm,
        fun start => dot (List.cons_prefix_cons.mp start).1.symm⟩
    · exact ⟨fun start => hyphen
          (List.cons_prefix_cons.mp (List.cons_prefix_cons.mp start).2).1.symm,
        fun start => absurd (List.cons_prefix_cons.mp start).1 (by decide)⟩

theorem isNumberChar_of_isDigit {c : Char} (digit : c.isDigit = true) : isNumberChar c = true := by
  simp [isNumberChar, digit]

theorem plainWord_int (value : Int) : PlainWord (toString value).toList := by
  have natural (n : Nat) : ∃ c rest, (toString n).toList = c :: rest ∧
      ∀ d ∈ c :: rest, d.isDigit = true := by
    rw [Nat.toString_eq_ofList_toDigits, String.toList_ofList]
    obtain ⟨c, rest, shape⟩ := List.exists_cons_of_ne_nil (Nat.toDigits_ne_nil (n := n) (b := 10))
    exact ⟨c, rest, shape, shape ▸ fun d mem =>
      Nat.isDigit_of_mem_toDigits (by decide) (by decide) mem⟩
  cases value with
  | ofNat n =>
    obtain ⟨c, rest, shape, digits⟩ := natural n
    have word := plainWord_of_number (.inl rfl) (digits c (List.mem_cons_self ..))
      fun d mem => isNumberChar_of_isDigit (digits d mem)
    exact shape ▸ word
  | negSucc n =>
    obtain ⟨c, rest, shape, digits⟩ := natural (n + 1)
    have word := plainWord_of_number (.inr rfl) (digits c (List.mem_cons_self ..))
      fun d mem => isNumberChar_of_isDigit (digits d mem)
    have signed : (toString (Int.negSucc n)).toList = ['-'] ++ (toString (n + 1)).toList := by
      simp [ToString.toString, Int.repr]
    rwa [signed, shape]

/-- The digits of a double start with one, wherever the point stands. -/
theorem exists_cons_magnitude (layout : Decimal.Layout) (d : Decimal.Magnitude) :
    ∃ c rest, layout.magnitude d = c :: rest ∧ c.isDigit = true := by
  obtain ⟨c, rest, shape⟩ :=
    List.exists_cons_of_ne_nil (Nat.toDigits_ne_nil (n := d.digits) (b := 10))
  have digit : c.isDigit = true :=
    Nat.isDigit_of_mem_toDigits (by decide) (by decide) (shape ▸ List.mem_cons_self ..)
  unfold Decimal.Layout.magnitude
  dsimp only
  rw [shape]
  split
  · unfold Decimal.plain
    dsimp only
    split
    · exact ⟨c, _, rfl, digit⟩
    · split
      · next positive =>
        obtain ⟨n, known⟩ : ∃ n, (((c :: rest).length : Int) + d.exponent).toNat = n + 1 :=
          ⟨(((c :: rest).length : Int) + d.exponent).toNat - 1, by omega⟩
        rw [known]
        exact ⟨c, _, rfl, digit⟩
      · exact ⟨'0', _, rfl, rfl⟩
  · exact ⟨c, _, rfl, digit⟩

theorem plainWord_float (value : Float) : PlainWord (doubles.write value).toList := by
  unfold Decimal.Layout.write
  split
  · exact plainWord_of_plainHolds (List.cons_ne_nil _ _) (by decide)
  · dsimp only
    split
    · split
      · exact plainWord_of_plainHolds (List.cons_ne_nil _ _) (by decide)
      · exact plainWord_of_plainHolds (List.cons_ne_nil _ _) (by decide)
    · obtain ⟨c, rest, shape, digit⟩ := exists_cons_magnitude doubles (Decimal.shortest value)
      have all : ∀ d ∈ c :: rest, isNumberChar d = true := shape ▸
        Decimal.forall_mem_magnitude doubles (fun _ => isNumberChar_of_isDigit) (by decide) _
      rw [String.toList_append, String.toList_ofList, shape]
      split
      · exact plainWord_of_number (.inr rfl) digit all
      · exact plainWord_of_number (.inl rfl) digit all

/-! ### Texts by their style -/

section StyleOf

variable {text : List Char}

theorem plainWord_of_styleOf (style : styleOf text = .plain) : PlainWord text := by
  unfold styleOf at style
  split at style
  · split at style <;> cases style
  · split at style
    · next plain =>
      rw [Bool.and_eq_true] at plain
      refine plainWord_of_plainHolds ?_ plain.2
      rintro rfl
      exact absurd plain.1 (by decide)
    · split at style <;> cases style

theorem singleFrom_of_styleOf (style : styleOf text = .single) : SingleFrom text := by
  unfold styleOf at style
  split at style
  · split at style <;> cases style
  · next oneLine =>
    split at style
    · cases style
    · split at style
      · next holds =>
        simp only [singleHolds, Bool.and_eq_true, Bool.not_eq_true'] at holds
        obtain ⟨clean, behind⟩ := holds
        have parts := clean
        simp only [needsEscapes, Bool.or_eq_false_iff, List.any_eq_false] at parts
        refine ⟨fun c mem lineEnd => ?_, tab_not_mem clean, parts.2, behind⟩
        have printable : isPrintable c = true := by simpa using parts.1 c mem
        rcases KeptBreak.of_isPrintable lineEnd printable with rfl | separator
        · exact absurd (by simpa using mem) oneLine
        · exact separator
      · cases style

theorem literal_of_styleOf (style : styleOf text = .literal) :
    '\n' ∈ text ∧ literalHolds text = true := by
  unfold styleOf at style
  split at style
  · next lineEnd =>
    split at style
    · next holds => exact ⟨by simpa using lineEnd, holds⟩
    · cases style
  · split at style
    · cases style
    · split at style <;> cases style

end StyleOf

/-! ### Keys -/

theorem byteLength_flatMap_le {encode : Char → List Char} {factor : Nat}
    (each : ∀ c, Text.byteLength (encode c) ≤ factor * c.utf8Size) (text : List Char) :
    Text.byteLength (text.flatMap encode) ≤ factor * Text.byteLength text := by
  induction text with
  | nil => exact Nat.zero_le _
  | cons c text ih =>
    rw [List.flatMap_cons, Text.byteLength_append, Text.byteLength_cons, Nat.mul_add]
    exact Nat.add_le_add (each c) ih

theorem byteLength_doubled (c : Char) : Text.byteLength (doubled c) ≤ 2 * c.utf8Size := by
  unfold doubled
  split
  · next quote =>
    obtain rfl : c = '\'' := by simpa using quote
    decide
  · simp
    omega

theorem byteLength_of_ascii {text : List Char} (all : ∀ c ∈ text, c.utf8Size = 1) :
    Text.byteLength text = text.length := by
  induction text with
  | nil => rfl
  | cons c text ih =>
    rw [Text.byteLength_cons, all c (List.mem_cons_self ..),
      ih fun d mem => all d (List.mem_cons_of_mem _ mem), List.length_cons, Nat.add_comm]

theorem exists_digit_of_mem_toDigits {n : Nat} {c : Char} (mem : c ∈ Nat.toDigits 16 n) :
    ∃ d < 16, c = Nat.digitChar d := by
  induction n using Nat.strongRecOn with
  | ind n ih =>
    rw [Nat.toDigits_eq_if (by decide)] at mem
    split at mem
    · next small => exact ⟨n, small, List.mem_singleton.mp mem⟩
    · next large =>
      rcases List.mem_append.mp mem with mem | mem
      · exact ih (n / 16) (by omega) mem
      · exact ⟨n % 16, Nat.mod_lt n (by decide), List.mem_singleton.mp mem⟩

theorem byteLength_hexDigits {n width : Nat} (positive : 0 < width)
    (fits : (Nat.toDigits 16 n).length ≤ width) :
    Text.byteLength (hexDigits n width) = width := by
  have length := (naturalOf?_hexDigits positive fits []).1
  rw [byteLength_of_ascii, length]
  intro c mem
  have digit : ∀ d < 16, (Nat.digitChar d).toUpper.utf8Size = 1 := by decide
  simp only [hexDigits, List.mem_append, List.mem_replicate, List.mem_map] at mem
  rcases mem with ⟨-, rfl⟩ | ⟨d, mem, rfl⟩
  · rfl
  · obtain ⟨d, small, rfl⟩ := exists_digit_of_mem_toDigits mem
    exact digit d small

theorem utf8Size_eq (c : Char) : c.utf8Size =
    if c.toNat ≤ 0x7f then 1
    else if c.toNat ≤ 0x7ff then 2 else if c.toNat ≤ 0xffff then 3 else 4 := by
  unfold Char.utf8Size
  simp only [UInt32.le_iff_toNat_le]
  rfl

theorem byteLength_escapeChar (c : Char) : Text.byteLength (escapeChar c) ≤ 4 * c.utf8Size := by
  have size := c.utf8Size_pos
  have fits {width : Nat} (positive : 0 < width) (small : c.toNat < 16 ^ width) :
      (Nat.toDigits 16 c.toNat).length ≤ width :=
    (Nat.length_toDigits_le_iff (by decide) positive).mpr small
  unfold escapeChar
  split
  · simp
    omega
  · split
    · next e short =>
      have ascii : e.utf8Size = 1 := by
        unfold shortEscape? at short
        split at short <;> cases short <;> rfl
      have slash : ('\\' : Char).utf8Size = 1 := rfl
      simp [ascii, slash]
      omega
    · have valid : c.toNat < 16 ^ 8 := by
        have valid := c.valid
        change Nat.isValidChar c.toNat at valid
        unfold Nat.isValidChar at valid
        omega
      have slash : ('\\' : Char).utf8Size = 1 := rfl
      have marks : ('x' : Char).utf8Size = 1 ∧ ('u' : Char).utf8Size = 1 ∧
        ('U' : Char).utf8Size = 1 := ⟨rfl, rfl, rfl⟩
      dsimp only
      split
      · next small =>
        rw [Text.byteLength_cons, Text.byteLength_cons, slash, marks.1,
          byteLength_hexDigits (by decide) (fits (by decide) (by omega))]
        omega
      · rw [utf8Size_eq]
        split
        · next large small =>
          rw [Text.byteLength_cons, Text.byteLength_cons, slash, marks.2.1,
            byteLength_hexDigits (by decide) (fits (by decide) (by omega))]
          split
          · omega
          · split <;> omega
        · next large =>
          rw [Text.byteLength_cons, Text.byteLength_cons, slash, marks.2.2,
            byteLength_hexDigits (by decide) (fits (by decide) valid), if_neg (by omega),
            if_neg (by omega)]
          omega

theorem indentBreaks_zero (starts : Bool) (text : List Char) :
    indentBreaks 0 starts text = text := by
  induction text generalizing starts with
  | nil => rfl
  | cons c text ih =>
    rw [indentBreaks]
    split <;> simp [ih]

/-- A colon is found soon enough behind every simple key. -/
theorem byteLength_simpleKey {key : String} (simple : isSimpleKey key = true) :
    Text.byteLength (simpleKey key) ≤ 514 := by
  have short : Text.byteLength key.toList ≤ 128 := by
    simp only [isSimpleKey, Bool.and_eq_true, decide_eq_true_eq] at simple
    rw [← Text.utf8ByteSize_ofList, String.ofList_toList]
    exact simple.2
  have quote : ('\'' : Char).utf8Size = 1 ∧ ('"' : Char).utf8Size = 1 := ⟨rfl, rfl⟩
  unfold simpleKey
  dsimp only
  split
  · omega
  · have inner := byteLength_flatMap_le byteLength_doubled key.toList
    rw [singleQuoted_eq, singleBody, indentBreaks_zero]
    simp [quote.1]
    omega
  · have inner := byteLength_flatMap_le byteLength_escapeChar key.toList
    simp only [doubleQuoted, Text.byteLength_append, Text.byteLength_cons, Text.byteLength_nil,
      quote.2, List.cons_append]
    omega

end CiTranslate.Yaml

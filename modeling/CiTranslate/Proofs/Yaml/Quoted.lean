import CiTranslate.Proofs.Yaml.Cursor
import CiTranslate.Yaml.Token.Quoted

/-!
Quoted scalars are read up to their closing quote.

Both kinds of quotes are read word by word, where a character of a word is read from what it is
written as (`readQuotedWord_flatMap`). Between double quotes all line breaks are escaped, so that
a gap is only ever blanks. Between single quotes line breaks stay, and every line after the first
is indented; the gaps there are the breaks without the indentation.
-/

namespace CiTranslate.Yaml

/-! ### Hexadecimal digits -/

theorem digit?_toUpper_digitChar {n : Nat} (digit : n < 16) :
    Text.digit? 16 n.digitChar.toUpper = some n := by
  have all : ∀ n < 16, Text.digit? 16 n.digitChar.toUpper = some n := by decide
  exact all n digit

theorem numberFrom?_append (base n : Nat) (digits more : List Char) :
    Text.numberFrom? base n (digits ++ more) =
      (Text.numberFrom? base n digits).bind fun m => Text.numberFrom? base m more := by
  induction digits generalizing n with
  | nil => rfl
  | cons c digits ih =>
    rw [List.cons_append, Text.numberFrom?, Text.numberFrom?]
    cases Text.digit? base c with
    | none => rfl
    | some digit => exact ih _

theorem numberFrom?_toDigits (n : Nat) :
    Text.numberFrom? 16 0 ((Nat.toDigits 16 n).map Char.toUpper) = some n := by
  induction n using Nat.strongRecOn with
  | ind n ih =>
    rw [Nat.toDigits_eq_if (by decide)]
    split
    · next small => simp [Text.numberFrom?, digit?_toUpper_digitChar small]
    · next large =>
      have digit := digit?_toUpper_digitChar (Nat.mod_lt n (by decide : 16 > 0))
      rw [List.map_append, numberFrom?_append, ih (n / 16) (by omega)]
      simp [Text.numberFrom?, digit, Nat.div_add_mod]

theorem numberFrom?_zeros (n : Nat) (digits : List Char) :
    Text.numberFrom? 16 0 (List.replicate n '0' ++ digits) = Text.numberFrom? 16 0 digits := by
  induction n with
  | zero => rfl
  | succ n ih =>
    rw [List.replicate_succ, List.cons_append, Text.numberFrom?]
    exact ih

/-- Digits that fill the width of an escape are the number that they were made from. -/
theorem naturalOf?_hexDigits {n width : Nat} (positive : 0 < width)
    (fits : (Nat.toDigits 16 n).length ≤ width) (rest : List Char) :
    (hexDigits n width).length = width ∧
      Text.naturalOf? 16 width (hexDigits n width ++ rest) = some n := by
  have length : (hexDigits n width).length = width := by
    simp only [hexDigits, List.length_append, List.length_replicate, List.length_map]
    omega
  have filled : (hexDigits n width).isEmpty = false := by
    rw [List.isEmpty_eq_false_iff, ← List.length_pos_iff, length]
    exact positive
  have taken : (hexDigits n width ++ rest).take width = hexDigits n width := by
    rw [List.take_left' length]
  refine ⟨length, ?_⟩
  simp only [Text.naturalOf?, taken, length, if_true, Text.natural?, filled, Bool.false_eq_true,
    if_false]
  rw [hexDigits, numberFrom?_zeros, numberFrom?_toDigits]

/-! ### Characters -/

theorem isCodePoint_toNat (c : Char) : isCodePoint c.toNat = true := by
  have valid := c.valid
  simp only [isCodePoint, Bool.or_eq_true, Bool.and_eq_true, decide_eq_true_eq]
  change Nat.isValidChar c.toNat at valid
  unfold Nat.isValidChar at valid
  omega

theorem ofNat_toNat_of_eq {c : Char} {n : Nat} (same : c.toNat = n) : c = Char.ofNat n := by
  rw [← same, Char.ofNat_toNat]

/-- A character with an escape of its own is what that escape stands for. -/
theorem escaped?_of_shortEscape? {c e : Char} (short : shortEscape? c = some e) :
    escaped? e = some c ∧ isBreak e = false := by
  unfold shortEscape? at short
  split at short
  all_goals first
    | next code =>
      cases short
      rw [ofNat_toNat_of_eq code]
      exact ⟨rfl, rfl⟩
    | cases short

/-- An escape with digits is read as its character. -/
theorem readEscape_digits {mark e : Char} {width : Nat} (positive : 0 < width)
    (noShort : escaped? e = none) (length : escapeLength? e = some width) {c : Char}
    (fits : (Nat.toDigits 16 c.toNat).length ≤ width) (start position : Mark)
    (rest : List Char) :
    readEscape start ⟨mark :: e :: (hexDigits c.toNat width ++ rest), position⟩ =
      .ok (c, ⟨rest, position.after (mark :: e :: hexDigits c.toNat width)⟩) := by
  obtain ⟨width', value⟩ := naturalOf?_hexDigits positive fits rest
  have passed : (⟨mark :: e :: (hexDigits c.toNat width ++ rest), position⟩ : Cursor).skipMany 2 =
      ⟨hexDigits c.toNat width ++ rest, position.after [mark, e]⟩ :=
    Cursor.skipMany_append [mark, e] _ position
  have digits := Cursor.skipMany_append (hexDigits c.toNat width) rest (position.after [mark, e])
  rw [width'] at digits
  simp only [readEscape, noShort, length, value, passed, isCodePoint_toNat, if_true, digits,
    Char.ofNat_toNat, Mark.after_after, List.cons_append, List.nil_append]

/-- A character is read from what it is written as, whatever follows. -/
structure ReadsAs (quote : Char) (start : Mark) (written : List Char) (c : Char) : Prop where
  filled : written ≠ []
  reads (steps : Nat) (read rest : List Char) (mark : Mark) :
    readQuotedWord quote start (steps + 1) read ⟨written ++ rest, mark⟩ =
      readQuotedWord quote start steps (c :: read) ⟨rest, mark.after written⟩

/-- Most characters stand for themselves. -/
theorem readsAs_self {quote c : Char} (start : Mark) (visible : isBlankOrBreak c = false)
    (noQuote : c ≠ quote) (noEscape : quote = '"' → c ≠ '\\') : ReadsAs quote start [c] c := by
  refine ⟨List.cons_ne_nil _ _, fun steps read rest mark => ?_⟩
  obtain ⟨noBlank, noBreak⟩ := not_isBlankOrBreak visible
  have noEscape : (quote == '"' && c == '\\') = false := by
    simp only [Bool.and_eq_false_iff, beq_eq_false_iff_ne]
    exact Decidable.not_or_of_imp noEscape
  rw [List.singleton_append, readQuotedWord]
  simp [noBlank, noBreak, noQuote, noEscape]

/-- Between single quotes a quote is written twice. -/
theorem readsAs_doubled (start : Mark) : ReadsAs '\'' start ['\'', '\''] '\'' := by
  refine ⟨List.cons_ne_nil _ _, fun steps read rest mark => ?_⟩
  have passed : (⟨'\'' :: '\'' :: rest, mark⟩ : Cursor).skipMany 2 =
      ⟨rest, mark.after ['\'', '\'']⟩ :=
    Cursor.skipMany_append ['\'', '\''] rest mark
  rw [List.cons_append, List.singleton_append, readQuotedWord]
  simp [isSpaceOrTab, isBreak, nextLine, lineSeparator, paragraphSeparator, passed]

/-- What an escape is read as takes its place. -/
theorem readsAs_of_readEscape {start : Mark} {e : Char} {written : List Char} {c : Char}
    (noBreak : isBreak e = false)
    (read : ∀ rest mark, readEscape start ⟨'\\' :: e :: (written ++ rest), mark⟩ =
      .ok (c, ⟨rest, mark.after ('\\' :: e :: written)⟩)) :
    ReadsAs '"' start ('\\' :: e :: written) c := by
  refine ⟨List.cons_ne_nil _ _, fun steps before rest mark => ?_⟩
  have visible : (isSpaceOrTab '\\' || isBreak '\\') = false := by decide
  rw [List.cons_append, List.cons_append, readQuotedWord]
  simp [visible, atBreakOrEnd, noBreak, read]

/-- Between double quotes every character but the blank is read from its escape. -/
theorem readsAs_escapeChar (start : Mark) {c : Char} (noBlank : c ≠ ' ') :
    ReadsAs '"' start (escapeChar c) c := by
  have fits {width : Nat} (positive : 0 < width) (small : c.toNat < 16 ^ width) :
      (Nat.toDigits 16 c.toNat).length ≤ width :=
    (Nat.length_toDigits_le_iff (by decide) positive).mpr small
  unfold escapeChar
  split
  · next plain =>
    simp only [Bool.and_eq_true, Bool.not_eq_true', bne_iff_ne, ne_eq] at plain
    obtain ⟨⟨⟨printable, noBreak⟩, noQuote⟩, noEscape⟩ := plain
    have noTab : c ≠ '\t' := by
      rintro rfl
      cases printable
    exact readsAs_self start (by simp [isBlankOrBreak, isSpaceOrTab, noBlank, noTab, noBreak])
      noQuote fun _ => noEscape
  · split
    · next e short =>
      obtain ⟨escape, noBreak⟩ := escaped?_of_shortEscape? short
      refine readsAs_of_readEscape noBreak fun rest mark => ?_
      have passed : (⟨'\\' :: e :: rest, mark⟩ : Cursor).skipMany 2 =
          ⟨rest, mark.after ['\\', e]⟩ :=
        Cursor.skipMany_append ['\\', e] rest mark
      simp [readEscape, escape, passed]
    · dsimp only
      split
      · next small =>
        exact readsAs_of_readEscape rfl fun rest mark =>
          readEscape_digits (by decide) rfl rfl (fits (by decide) (by omega)) start mark rest
      · split
        · next small =>
          exact readsAs_of_readEscape rfl fun rest mark =>
            readEscape_digits (by decide) rfl rfl (fits (by decide) (by omega)) start mark rest
        · have small : c.toNat < 16 ^ 8 := by
            have valid := c.valid
            change Nat.isValidChar c.toNat at valid
            unfold Nat.isValidChar at valid
            omega
          exact readsAs_of_readEscape rfl fun rest mark =>
            readEscape_digits (by decide) rfl rfl (fits (by decide) small) start mark rest

/-! ### Words -/

/-- A word ends at a blank, a line break or the closing quote. -/
def EndsQuotedWord (quote : Char) (rest : List Char) : Prop :=
  ∃ c after, rest = c :: after ∧
    (isBlankOrBreak c = true ∨ c = quote ∧ (quote = '\'' → after.head? ≠ some '\''))

theorem length_le_flatMap {encode : Char → List Char} {word : List Char}
    (filled : ∀ c ∈ word, encode c ≠ []) : word.length ≤ (word.flatMap encode).length := by
  induction word with
  | nil => exact Nat.le_refl 0
  | cons c word ih =>
    have first := List.length_pos_iff.mpr (filled c (List.mem_cons_self ..))
    have rest := ih fun d mem => filled d (List.mem_cons_of_mem _ mem)
    rw [List.flatMap_cons, List.length_append, List.length_cons]
    omega

theorem readQuotedWord_flatMap {quote : Char} {start : Mark} {encode : Char → List Char}
    {word : List Char} (reads : ∀ c ∈ word, ReadsAs quote start (encode c) c) {rest : List Char}
    (ends : EndsQuotedWord quote rest) {steps : Nat} (enough : word.length < steps)
    (read : List Char) (mark : Mark) :
    readQuotedWord quote start steps read ⟨word.flatMap encode ++ rest, mark⟩ =
      .ok (word.reverse ++ read, ⟨rest, mark.after (word.flatMap encode)⟩, false) := by
  induction word generalizing steps read mark with
  | nil =>
    obtain ⟨steps, rfl⟩ := Nat.exists_eq_add_of_lt enough
    obtain ⟨c, after, rfl, blank | ⟨rfl, single⟩⟩ := ends
    · rw [List.flatMap_nil, List.nil_append, readQuotedWord]
      simp only [show (isSpaceOrTab c || isBreak c) = true from blank, if_true]
      rfl
    · rw [List.flatMap_nil, List.nil_append, readQuotedWord]
      by_cases blank : (isSpaceOrTab c || isBreak c) = true
      · simp only [blank, if_true]
        rfl
      · have other : (c == '\'' && after.head? == some '\'') = false := by
          simp only [Bool.and_eq_false_iff, beq_eq_false_iff_ne]
          exact Decidable.not_or_of_imp single
        simp [blank, other]
  | cons c word ih =>
    obtain ⟨steps, rfl⟩ : ∃ more, steps = more + 1 := ⟨steps - 1, by simp at enough; omega⟩
    rw [List.flatMap_cons, List.append_assoc, (reads c (List.mem_cons_self ..)).reads,
      ih (fun d mem => reads d (List.mem_cons_of_mem _ mem)) (Nat.lt_of_succ_lt_succ enough)]
    simp

/-! ### Rounds -/

section Rounds

variable {quote : Char} {start mark : Mark} {encode : Char → List Char} {word : List Char}

/-- The last word is read with the closing quote. -/
theorem readQuotedFrom_close (reads : ∀ c ∈ word, ReadsAs quote start (encode c) c)
    {after : List Char} (single : quote = '\'' → after.head? ≠ some '\'')
    (moved : mark.column ≠ 0) (steps : Nat) (read : List Char) :
    readQuotedFrom quote start (steps + 1) read ⟨word.flatMap encode ++ quote :: after, mark⟩ =
      .ok (read.reverse ++ word, ⟨after, mark.after (word.flatMap encode ++ [quote])⟩) := by
  have length := length_le_flatMap fun c mem => (reads c mem).filled
  have found := readQuotedWord_flatMap reads ⟨quote, after, rfl, .inr ⟨rfl, single⟩⟩
    (show word.length < (word.flatMap encode ++ quote :: after).length + 1 by
      rw [List.length_append]
      omega) read mark
  have notEnd : (word.flatMap encode ++ quote :: after).isEmpty = false := by simp
  rw [readQuotedFrom]
  simp only [Cursor.not_atDocumentMarker (.inl moved), notEnd, found, Bool.false_eq_true, if_false]
  simp

/-- A word before a gap is read with the gap. -/
theorem readQuotedFrom_gap (reads : ∀ c ∈ word, ReadsAs quote start (encode c) c)
    (visible : isBlankOrBreak quote = false) {c : Char} {text : List Char}
    (blank : isBlankOrBreak c = true) {gap : Gap} {next : Cursor}
    (found : ({} : Gap).read 0 ⟨c :: text, mark.after (word.flatMap encode)⟩ = .ok (gap, next))
    (moved : mark.column ≠ 0) (steps : Nat) (read : List Char) :
    readQuotedFrom quote start (steps + 1) read ⟨word.flatMap encode ++ c :: text, mark⟩ =
      readQuotedFrom quote start steps (gap.folded.reverse ++ (word.reverse ++ read)) next := by
  have length := length_le_flatMap fun c mem => (reads c mem).filled
  have inside := readQuotedWord_flatMap reads ⟨c, text, rfl, .inl blank⟩
    (show word.length < (word.flatMap encode ++ c :: text).length + 1 by
      rw [List.length_append]
      omega) read mark
  have notEnd : (word.flatMap encode ++ c :: text).isEmpty = false := by simp
  have other : c ≠ quote := by
    rintro rfl
    rw [blank] at visible
    cases visible
  rw [readQuotedFrom]
  simp only [Cursor.not_atDocumentMarker (.inl moved), notEnd, inside, Bool.false_eq_true, if_false,
    List.head?_cons, beq_iff_eq, Option.some.injEq, other, found]

end Rounds

/-! ### Double quotes -/

theorem escapeChar_space : escapeChar ' ' = [' '] := by decide

theorem flatMap_escapeChar_spaces (n : Nat) : (spaces n).flatMap escapeChar = spaces n := by
  induction n with
  | zero => rfl
  | succ n ih => rw [spaces_succ, List.flatMap_cons, ih, escapeChar_space, List.singleton_append]

/-- What a character is written as starts a word, unless it is a blank. -/
theorem atWord_escapeChar {c : Char} (visible : c ≠ ' ') (rest : List Char) :
    AtWord (escapeChar c ++ rest) := by
  unfold escapeChar
  split
  · next plain =>
    simp only [Bool.and_eq_true, Bool.not_eq_true', bne_iff_ne, ne_eq] at plain
    obtain ⟨⟨⟨printable, noBreak⟩, -⟩, -⟩ := plain
    have noTab : c ≠ '\t' := by
      rintro rfl
      cases printable
    rw [List.singleton_append, atWord_cons]
    simp [isBlankOrBreak, isSpaceOrTab, visible, noTab, noBreak]
  · split
    · exact atWord_cons.mpr (by decide)
    · dsimp only
      split
      · exact atWord_cons.mpr (by decide)
      · split <;> exact atWord_cons.mpr (by decide)

theorem escapeChar_ne_nil (c : Char) : escapeChar c ≠ [] := by
  unfold escapeChar
  split
  · exact List.cons_ne_nil _ _
  · split
    · exact List.cons_ne_nil _ _
    · dsimp only
      repeat' split
      all_goals exact List.cons_ne_nil _ _

theorem readQuotedFrom_double {start mark : Mark} (text after : List Char)
    (moved : mark.column ≠ 0) {steps : Nat} (enough : text.length < steps) (read : List Char) :
    readQuotedFrom '"' start steps read ⟨text.flatMap escapeChar ++ '"' :: after, mark⟩ =
      .ok (read.reverse ++ text, ⟨after, mark.after (text.flatMap escapeChar ++ ['"'])⟩) := by
  induction steps generalizing text mark read with
  | zero => exact absurd enough (Nat.not_lt_zero _)
  | succ steps ih =>
    obtain ⟨word, left, rfl, inside, stop⟩ := exists_run (· != ' ') text
    have reads : ∀ c ∈ word, ReadsAs '"' start (escapeChar c) c := fun c mem =>
      readsAs_escapeChar start (by simpa using inside c mem)
    obtain ⟨n, more, rfl, visible⟩ := exists_spaces left
    cases n with
    | zero =>
      cases more with
      | nil =>
        have single : '"' = '\'' → after.head? ≠ some '\'' := fun same => absurd same (by decide)
        simpa using readQuotedFrom_close reads single moved steps read
      | cons c more => exact absurd (by simpa using stop c rfl) (visible c rfl)
    | succ n =>
      have atWord : AtWord (more.flatMap escapeChar ++ '"' :: after) := by
        cases more with
        | nil => exact atWord_cons.mpr (by decide)
        | cons c more =>
          rw [List.flatMap_cons, List.append_assoc]
          exact atWord_escapeChar (visible c rfl) _
      have gap := Gap.read_spaces 0 (n + 1) atWord (mark.after (word.flatMap escapeChar))
      have length : more.length < steps := by
        simp only [List.length_append, length_spaces] at enough
        omega
      have shape : (word ++ (spaces (n + 1) ++ more)).flatMap escapeChar ++ '"' :: after =
          word.flatMap escapeChar ++
            ' ' :: (spaces n ++ (more.flatMap escapeChar ++ '"' :: after)) := by
        simp [flatMap_escapeChar_spaces, spaces_succ, escapeChar_space]
      rw [spaces_succ, List.cons_append] at gap
      rw [shape, readQuotedFrom_gap reads (by decide) (by decide) gap moved,
        ih more (by simp) length]
      simp [Gap.folded, flatMap_escapeChar_spaces, spaces_succ, escapeChar_space]

theorem readQuoted_double (text after : List Char) (mark : Mark) :
    readQuoted '"' ⟨doubleQuoted text ++ after, mark⟩ =
      .ok (⟨.scalar text .quoted, mark, mark.after (doubleQuoted text)⟩,
        ⟨after, mark.after (doubleQuoted text)⟩) := by
  have length : text.length < (doubleQuoted text ++ after).length + 1 := by
    have inside := length_le_flatMap fun c (_ : c ∈ text) => escapeChar_ne_nil c
    simp only [doubleQuoted, List.length_append, List.length_cons]
    omega
  have read := @readQuotedFrom_double mark (mark.after ['"']) text after (by simp) _ length []
  have shape : (⟨doubleQuoted text ++ after, mark⟩ : Cursor).skip =
      ⟨text.flatMap escapeChar ++ '"' :: after, mark.after ['"']⟩ := by
    simp [doubleQuoted]
  rw [readQuoted, shape, read]
  simp [Except.map, doubleQuoted]

/-! ### Single quotes -/

/-- A quote is written twice between single quotes. -/
def doubled (c : Char) : List Char := if c == '\'' then ['\'', '\''] else [c]

/-- The text between single quotes, from a place that no line break is before. -/
def singleBody (column : Nat) (text : List Char) : List Char :=
  indentBreaks column false (text.flatMap doubled) ++
    if text.getLast?.any isBreak then spaces column else []

theorem singleQuoted_eq (column : Nat) (text : List Char) :
    singleQuoted column text = '\'' :: singleBody column text ++ ['\''] := by
  simp only [singleQuoted, singleBody, List.cons_append]
  rfl

theorem readsAs_doubled_of_visible (start : Mark) {c : Char} (visible : isBlankOrBreak c = false) :
    ReadsAs '\'' start (doubled c) c := by
  unfold doubled
  split
  · next quote =>
    rw [eq_of_beq quote]
    exact readsAs_doubled start
  · next other => exact readsAs_self start visible (by simpa using other) (by simp)

theorem indentBreaks_word (column : Nat) (starts : Bool) {word : List Char} (filled : word ≠ [])
    (oneLine : ∀ c ∈ word, isBreak c = false) (text : List Char) :
    indentBreaks column starts (word ++ text) =
      (if starts then spaces column else []) ++ (word ++ indentBreaks column false text) := by
  induction word generalizing starts with
  | nil => exact absurd rfl filled
  | cons c word ih =>
    rw [List.cons_append, indentBreaks, oneLine c (List.mem_cons_self ..)]
    cases word with
    | nil => simp
    | cons d word =>
      rw [ih false (List.cons_ne_nil _ _) fun e mem => oneLine e (List.mem_cons_of_mem _ mem)]
      simp

theorem indentBreaks_breaks (column : Nat) (starts : Bool) {breaks : List Char}
    (filled : breaks ≠ []) (all : ∀ c ∈ breaks, isBreak c = true) (text : List Char) :
    indentBreaks column starts (breaks ++ text) = breaks ++ indentBreaks column true text := by
  induction breaks generalizing starts with
  | nil => exact absurd rfl filled
  | cons c breaks ih =>
    rw [List.cons_append, indentBreaks, all c (List.mem_cons_self ..), if_pos rfl]
    cases breaks with
    | nil => rfl
    | cons d breaks =>
      rw [ih true (List.cons_ne_nil _ _) fun e mem => all e (List.mem_cons_of_mem _ mem)]
      rfl

theorem length_le_indentBreaks (column : Nat) (starts : Bool) (text : List Char) :
    text.length ≤ (indentBreaks column starts text).length := by
  induction text generalizing starts with
  | nil => exact Nat.le_refl 0
  | cons c text ih =>
    rw [indentBreaks]
    split
    · exact Nat.succ_le_succ (ih true)
    · have rest := ih false
      simp only [List.length_append, List.length_cons]
      omega

theorem flatMap_doubled_breaks {breaks : List Char} (all : ∀ c ∈ breaks, isBreak c = true) :
    breaks.flatMap doubled = breaks := by
  induction breaks with
  | nil => rfl
  | cons c breaks ih =>
    have other : (c == '\'') = false := by
      refine beq_eq_false_iff_ne.mpr ?_
      rintro rfl
      exact absurd (all _ (List.mem_cons_self ..)) (by decide)
    rw [List.flatMap_cons, ih fun d mem => all d (List.mem_cons_of_mem _ mem), doubled, other]
    rfl

theorem flatMap_doubled_spaces (n : Nat) : (spaces n).flatMap doubled = spaces n := by
  induction n with
  | zero => rfl
  | succ n ih =>
    rw [spaces_succ, List.flatMap_cons, ih]
    rfl

theorem doubled_oneLine {text : List Char} (oneLine : ∀ c ∈ text, isBreak c = false) :
    ∀ c ∈ text.flatMap doubled, isBreak c = false := by
  intro c mem
  obtain ⟨d, own, mem⟩ := List.mem_flatMap.mp mem
  unfold doubled at mem
  split at mem
  · have quote : c = '\'' := by simpa using mem
    rw [quote]
    rfl
  · rw [List.mem_singleton.mp mem]
    exact oneLine d own

theorem doubled_ne_nil (c : Char) : doubled c ≠ [] := by
  unfold doubled
  split <;> exact List.cons_ne_nil _ _

theorem singleBody_word (column : Nat) {word : List Char} (oneLine : ∀ c ∈ word, isBreak c = false)
    (text : List Char) :
    singleBody column (word ++ text) = word.flatMap doubled ++ singleBody column text := by
  rcases word with _ | ⟨c, word⟩
  · rfl
  · have filled : (c :: word).flatMap doubled ≠ [] := by
      rw [List.flatMap_cons]
      exact List.append_ne_nil_of_left_ne_nil (doubled_ne_nil c) _
    have ending : ((c :: word) ++ text).getLast?.any isBreak = text.getLast?.any isBreak := by
      rw [List.getLast?_append]
      cases last : text.getLast? with
      | some d => rfl
      | none =>
        have own := oneLine ((c :: word).getLast (List.cons_ne_nil _ _)) (List.getLast_mem _)
        simp [List.getLast?_eq_some_getLast (List.cons_ne_nil c word), own]
    rw [singleBody, List.flatMap_append, indentBreaks_word column false filled
      (doubled_oneLine oneLine), ending, singleBody]
    simp

/-- Line breaks are followed by the indentation of the next line, or of the closing quote. -/
theorem singleBody_breaks (column : Nat) {breaks : List Char} (filled : breaks ≠ [])
    (all : ∀ c ∈ breaks, isBreak c = true) {text : List Char}
    (oneLine : ∀ c ∈ text.head?, isBreak c = false) :
    singleBody column (breaks ++ text) =
      breaks ++ (spaces column ++ singleBody column text) := by
  rw [singleBody, List.flatMap_append, flatMap_doubled_breaks all,
    indentBreaks_breaks column false filled all]
  rcases text with _ | ⟨c, text⟩
  · have ending : (breaks ++ []).getLast?.any isBreak = true := by
      rw [List.append_nil, List.getLast?_eq_some_getLast filled]
      exact all _ (List.getLast_mem _)
    rw [if_pos ending]
    simp [indentBreaks, singleBody]
  · have first : indentBreaks column true ((c :: text).flatMap doubled) =
        spaces column ++ indentBreaks column false ((c :: text).flatMap doubled) := by
      have line := doubled_oneLine (show ∀ d ∈ [c], isBreak d = false by simpa using oneLine)
      rw [List.flatMap_singleton] at line
      rw [List.flatMap_cons, indentBreaks_word column true (doubled_ne_nil c) line,
        indentBreaks_word column false (doubled_ne_nil c) line]
      rfl
    have ending : (breaks ++ c :: text).getLast? = (c :: text).getLast? := by
      rw [List.getLast?_append, List.getLast?_cons]
      rfl
    rw [first, ending, singleBody]
    simp

/-- What is left of a text between single quotes from some word on. -/
structure SingleFrom (text : List Char) : Prop where
  breaks : ∀ c ∈ text, isBreak c = true → c = lineSeparator ∨ c = paragraphSeparator
  noTab : '\t' ∉ text
  before : anyNeighbours isSpaceBeforeBreak text = false
  behind : anyNeighbours isSpaceAfterBreak text = false

theorem SingleFrom.append_right {text rest : List Char} (single : SingleFrom (text ++ rest)) :
    SingleFrom rest where
  breaks c mem := single.breaks c (List.mem_append_right text mem)
  noTab mem := single.noTab (List.mem_append_right text mem)
  before := anyNeighbours_append_right single.before
  behind := anyNeighbours_append_right single.behind

theorem atWord_singleBody (column : Nat) {text : List Char}
    (visible : ∀ c ∈ text.head?, isBlankOrBreak c = false) (after : List Char) :
    AtWord (singleBody column text ++ '\'' :: after) := by
  cases text with
  | nil => exact atWord_cons.mpr (by decide)
  | cons c text =>
    have line : ∀ d ∈ [c], isBreak d = false := by
      simpa using (not_isBlankOrBreak (visible c rfl)).2
    rw [← List.singleton_append, singleBody_word column line, List.flatMap_singleton]
    unfold doubled
    split
    · exact atWord_cons.mpr (by decide)
    · exact atWord_cons.mpr (visible c rfl)

/-- No line ends in a blank. -/
theorem SingleFrom.visible_after_spaces {n : Nat} {more : List Char}
    (single : SingleFrom (spaces (n + 1) ++ more)) (stop : ∀ c ∈ more.head?, c ≠ ' ') :
    ∀ c ∈ more.head?, isBlankOrBreak c = false := by
  intro c mem
  obtain ⟨tail, rfl⟩ := List.head?_eq_some_iff.mp (Option.mem_def.mp mem)
  have noTab : c ≠ '\t' := by
    rintro rfl
    exact single.noTab (by simp)
  have pair := single.before
  rw [spaces_succ', List.append_assoc] at pair
  have noBreak : isBreak c = false := by
    simpa [isSpaceBeforeBreak] using not_of_anyNeighbours pair
  simp [isBlankOrBreak, isSpaceOrTab, stop c mem, noTab, noBreak]

/-- No line starts with a blank. -/
theorem SingleFrom.visible_after_breaks {breaks more : List Char} (filled : breaks ≠ [])
    (all : ∀ c ∈ breaks, isBreak c = true) (single : SingleFrom (breaks ++ more))
    (stop : ∀ c ∈ more.head?, isBreak c = false) : ∀ c ∈ more.head?, isBlankOrBreak c = false := by
  intro c mem
  obtain ⟨tail, rfl⟩ := List.head?_eq_some_iff.mp (Option.mem_def.mp mem)
  obtain ⟨start, last, rfl⟩ := (List.eq_nil_or_concat breaks).resolve_left filled
  have noTab : c ≠ '\t' := by
    rintro rfl
    exact single.noTab (by simp)
  have pair := single.behind
  rw [List.concat_eq_append, List.append_assoc] at pair
  have noSpace : c ≠ ' ' := by
    simpa [isSpaceAfterBreak, all last (by simp)] using not_of_anyNeighbours pair
  simp [isBlankOrBreak, isSpaceOrTab, noSpace, noTab, stop c mem]

section Single

variable {start mark : Mark} {column : Nat} {word more after : List Char}

/-- A word and the blanks after it. -/
theorem readQuotedFrom_single_spaces (visible : ∀ c ∈ word, isBlankOrBreak c = false)
    (another : ∀ c ∈ more.head?, isBlankOrBreak c = false) (moved : mark.column ≠ 0) (n steps : Nat)
    (read : List Char) :
    readQuotedFrom '\'' start (steps + 1) read
        ⟨singleBody column (word ++ (spaces (n + 1) ++ more)) ++ '\'' :: after, mark⟩ =
      readQuotedFrom '\'' start steps ((word ++ spaces (n + 1)).reverse ++ read)
        ⟨singleBody column more ++ '\'' :: after,
          mark.after (word.flatMap doubled ++ spaces (n + 1))⟩ := by
  have reads : ∀ c ∈ word, ReadsAs '\'' start (doubled c) c := fun c mem =>
    readsAs_doubled_of_visible start (visible c mem)
  have line : ∀ c ∈ spaces (n + 1), isBreak c = false := fun c mem => by
    rw [eq_of_mem_spaces mem]
    rfl
  have gap := Gap.read_spaces 0 (n + 1) (atWord_singleBody column another after)
    (mark.after (word.flatMap doubled))
  rw [singleBody_word column fun c mem => (not_isBlankOrBreak (visible c mem)).2,
    singleBody_word column line, flatMap_doubled_spaces]
  simp only [List.append_assoc] at gap ⊢
  rw [spaces_succ, List.cons_append] at gap ⊢
  rw [readQuotedFrom_gap reads (by decide) (by decide) gap moved]
  simp [Gap.folded]

/-- A word and the line breaks after it, with the indentation of the next line. -/
theorem readQuotedFrom_single_breaks (visible : ∀ c ∈ word, isBlankOrBreak c = false)
    (another : ∀ c ∈ more.head?, isBlankOrBreak c = false) (moved : mark.column ≠ 0)
    {first : Char} {breaks : List Char}
    (kept : ∀ c ∈ first :: breaks, c = lineSeparator ∨ c = paragraphSeparator) (steps : Nat)
    (read : List Char) :
    readQuotedFrom '\'' start (steps + 1) read
        ⟨singleBody column (word ++ (first :: breaks ++ more)) ++ '\'' :: after, mark⟩ =
      readQuotedFrom '\'' start steps ((word ++ first :: breaks).reverse ++ read)
        ⟨singleBody column more ++ '\'' :: after,
          ((mark.after (word.flatMap doubled)).afterBreaks (first :: breaks)).after
            (spaces column)⟩ := by
  have reads : ∀ c ∈ word, ReadsAs '\'' start (doubled c) c := fun c mem =>
    readsAs_doubled_of_visible start (visible c mem)
  have all : ∀ c ∈ first :: breaks, KeptBreak c := fun c mem => .inr (kept c mem)
  have gap := Gap.read_breaks 0 (all first (List.mem_cons_self ..))
    (fun c mem => all c (List.mem_cons_of_mem _ mem)) column
    (atWord_singleBody column another after) (mark.after (word.flatMap doubled))
  have folded : ({ broken := true, first := [first], more := breaks } : Gap).folded =
      first :: breaks := by
    have noFeed : first ≠ '\n' := by
      rcases kept first (List.mem_cons_self ..) with rfl | rfl <;> decide
    simp [Gap.folded, noFeed]
  have blank : isBlankOrBreak first = true := by
    simp [isBlankOrBreak, (all first (List.mem_cons_self ..)).isBreak]
  rw [singleBody_word column fun c mem => (not_isBlankOrBreak (visible c mem)).2,
    singleBody_breaks column (List.cons_ne_nil _ _) (fun c mem => (all c mem).isBreak)
      fun c mem => (not_isBlankOrBreak (another c mem)).2]
  simp only [List.append_assoc, List.cons_append] at gap ⊢
  rw [readQuotedFrom_gap reads (by decide) blank gap moved, folded]
  simp

end Single

theorem readQuotedFrom_single {start mark : Mark} {column : Nat} {text after : List Char}
    (single : SingleFrom text) (indented : 0 < column ∨ ∀ c ∈ text, isBreak c = false)
    (other : after.head? ≠ some '\'') (moved : mark.column ≠ 0) {steps : Nat}
    (enough : text.length < steps) (read : List Char) :
    ∃ next : Mark, mark.line ≤ next.line ∧
      ((∀ c ∈ text, isBreak c = false) → next = mark.after (singleBody column text ++ ['\''])) ∧
      readQuotedFrom '\'' start steps read ⟨singleBody column text ++ '\'' :: after, mark⟩ =
        .ok (read.reverse ++ text, ⟨after, next⟩) := by
  induction steps generalizing text mark read with
  | zero => exact absurd enough (Nat.not_lt_zero _)
  | succ steps ih =>
    obtain ⟨word, left, rfl, inside, stop⟩ := exists_run (fun c => !isBlankOrBreak c) text
    have visible : ∀ c ∈ word, isBlankOrBreak c = false := fun c mem => by
      simpa using inside c mem
    have line : ∀ c ∈ word, isBreak c = false := fun c mem => (not_isBlankOrBreak (visible c mem)).2
    rcases left with _ | ⟨c, left⟩
    · have reads : ∀ c ∈ word, ReadsAs '\'' start (doubled c) c := fun c mem =>
        readsAs_doubled_of_visible start (visible c mem)
      have body : singleBody column (word ++ []) = word.flatMap doubled := by
        rw [singleBody_word column line]
        simp [singleBody, indentBreaks]
      rw [body]
      exact ⟨mark.after (word.flatMap doubled ++ ['\'']), Nat.le_refl _, fun _ => rfl,
        by simpa using readQuotedFrom_close reads (fun _ => other) moved steps read⟩
    · have rest := single.append_right
      by_cases blank : c = ' '
      · obtain ⟨n, more, rfl, noBlank⟩ := exists_spaces left
        subst blank
        rw [← List.cons_append, ← spaces_succ] at *
        have another := rest.visible_after_spaces noBlank
        obtain ⟨next, later, direct, read'⟩ := ih rest.append_right
          (indented.imp_right fun all d mem => all d (by simp [mem]))
          (show (mark.after (word.flatMap doubled ++ spaces (n + 1))).column ≠ 0 by simp)
          (by simp only [List.length_append, length_spaces] at enough; omega)
          ((word ++ spaces (n + 1)).reverse ++ read)
        refine ⟨next, later, fun all => ?_, ?_⟩
        · rw [direct fun d mem => all d (by simp [mem]), singleBody_word column line,
            singleBody_word column fun d mem => all d (by simp [mem]), flatMap_doubled_spaces]
          simp
        · rw [readQuotedFrom_single_spaces visible another moved, read']
          simp
      · obtain ⟨breaks, more, whole, all, noBreak⟩ := exists_run isBreak (c :: left)
        have lineEnd : isBreak c = true := by
          have start := stop c rfl
          simp only [isBlankOrBreak, isSpaceOrTab, Bool.not_eq_false', Bool.or_eq_true, beq_iff_eq,
            blank, false_or] at start
          rcases start with rfl | lineEnd
          · exact absurd (List.mem_cons_self ..) rest.noTab
          · exact lineEnd
        rcases breaks with _ | ⟨first, breaks⟩
        · rw [List.nil_append] at whole
          rw [← whole] at noBreak
          rw [noBreak c rfl] at lineEnd
          cases lineEnd
        · rw [whole] at rest single indented enough ⊢
          have another := rest.visible_after_breaks (List.cons_ne_nil _ _) all noBreak
          have first' := all first (List.mem_cons_self ..)
          have filled : 0 < column := indented.resolve_right fun none => by
            rw [none first (by simp)] at first'
            cases first'
          obtain ⟨next, later, -, read'⟩ := ih rest.append_right (.inl filled)
            (show (((mark.after (word.flatMap doubled)).afterBreaks (first :: breaks)).after
              (spaces column)).column ≠ 0 by simp; omega)
            (by simp only [List.length_append, List.length_cons] at enough; omega)
            ((word ++ first :: breaks).reverse ++ read)
          refine ⟨next, ?_, fun all' => ?_, ?_⟩
          · refine Nat.le_trans ?_ later
            simp
          · rw [all' first (by simp)] at first'
            cases first'
          · rw [readQuotedFrom_single_breaks visible another moved fun d mem =>
              rest.breaks d (List.mem_append_left _ mem) (all d mem), read']
            simp

theorem readQuoted_single {column : Nat} {text after : List Char} (single : SingleFrom text)
    (indented : 0 < column ∨ ∀ c ∈ text, isBreak c = false) (other : after.head? ≠ some '\'')
    (mark : Mark) :
    ∃ next : Mark, mark.line ≤ next.line ∧
      ((∀ c ∈ text, isBreak c = false) → next = mark.after (singleQuoted column text)) ∧
      readQuoted '\'' ⟨singleQuoted column text ++ after, mark⟩ =
        .ok (⟨.scalar text .quoted, mark, next⟩, ⟨after, next⟩) := by
  have length : text.length < (singleQuoted column text ++ after).length + 1 := by
    have inside := length_le_flatMap fun c (_ : c ∈ text) => doubled_ne_nil c
    have body := length_le_indentBreaks column false (text.flatMap doubled)
    simp only [singleQuoted_eq, singleBody, List.length_append, List.length_cons]
    omega
  obtain ⟨next, later, direct, read⟩ := @readQuotedFrom_single mark (mark.after ['\'']) column text
    after single indented other (by simp) _ length []
  have shape : (⟨singleQuoted column text ++ after, mark⟩ : Cursor).skip =
      ⟨singleBody column text ++ '\'' :: after, mark.after ['\'']⟩ := by
    simp [singleQuoted_eq]
  refine ⟨next, later, fun line => ?_, ?_⟩
  · rw [direct line, singleQuoted_eq]
    simp
  · rw [readQuoted, shape, read]
    simp [Except.map]

end CiTranslate.Yaml

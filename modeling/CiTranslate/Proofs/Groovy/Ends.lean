import Mathlib.Data.List.Find
import CiTranslate.Proofs.Groovy.Script
import CiTranslate.Proofs.Text.Rows

/-!
The ends of scripts.

A line end at the end of a script is a passage of its own, or it lengthens the passage that goes up
to the end of the script by one (`passage_append_newline`). So at most the line end itself is added
to what is left (`withoutNoiseFrom_append_newline`), and tidying drops it: the script is cleaned as
one without it (`clean_append_newline`).

A visible character at the start, with which nothing begins that is dropped, stays at the start
(`exists_clean_cons`).
-/

namespace CiTranslate.Groovy

/-! ### Lengths -/

/-- How the length of a part at the start of a text can change when a line end is put after the
text: only a part that goes up to the end can take it in. -/
def Reaches (text : List Char) (length longer : Nat) : Prop :=
  longer = length ∨ length = text.length ∧ longer = length + 1

theorem Reaches.refl (text : List Char) (length : Nat) : Reaches text length length := .inl rfl

theorem Reaches.append {text : List Char} {length longer : Nat}
    (reaches : Reaches text length longer) (start : List Char) :
    Reaches (start ++ text) (length + start.length) (longer + start.length) := by
  rcases reaches with same | ⟨whole, longer⟩
  · exact .inl (by rw [same])
  · refine .inr ⟨?_, ?_⟩
    · rw [whole, List.length_append, Nat.add_comm]
    · omega

theorem Reaches.cons {text : List Char} {length longer : Nat}
    (reaches : Reaches text length longer) (c : Char) :
    Reaches (c :: text) (length + 1) (longer + 1) :=
  reaches.append [c]

/-! ### Literals -/

theorem lineLength_cons (quote : Char) {c : Char} (other : c ≠ '\\') (text : List Char) :
    lineLength quote (c :: text) =
      if c == '\n' then 0 else if c == quote then 1 else lineLength quote text + 1 := by
  rw [lineLength]
  rintro _ _ rfl
  exact absurd rfl other

theorem blockLength_cons (quote : Char) {c : Char} (other : c ≠ '\\') (text : List Char) :
    blockLength quote (c :: text) =
      if startsTriple quote (c :: text) then 3 else blockLength quote text + 1 := by
  rw [blockLength]
  rintro _ _ rfl
  exact absurd rfl other

theorem startsTriple_append_newline {quote : Char} (mark : isQuote quote = true)
    (text : List Char) : startsTriple quote (text ++ ['\n']) = startsTriple quote text :=
  Text.isPrefixOf_append_cons (by simpa using Ne.symm (ne_newline_of_isQuote mark)) text []

theorem reaches_lineLength {quote : Char} (mark : isQuote quote = true) (text : List Char) :
    Reaches text (lineLength quote text) (lineLength quote (text ++ ['\n'])) := by
  induction text using lineLength.induct quote with
  | case1 => exact .refl ..
  | case2 c text ih => exact ih.append ['\\', c]
  | case3 c text _ newline =>
    obtain rfl := eq_of_beq newline
    exact .refl ..
  | case4 c text _ newline closed =>
    have other : c ≠ '\\' := eq_of_beq closed ▸ ne_slash_of_isQuote mark
    rw [List.cons_append, lineLength_cons quote other, lineLength_cons quote other, closed]
    exact .refl ..
  | case5 c text follows newline closed ih =>
    by_cases other : c = '\\'
    · -- A slash at the end of the text escapes the line end, which belongs to the literal then.
      cases text with
      | nil =>
        subst other
        rw [lineLength, if_neg newline, if_neg closed]
        · exact .inr ⟨rfl, rfl⟩
        · rintro _ _ _ ⟨⟩
      | cons d text => exact (follows d text other rfl).elim
    · rw [List.cons_append, lineLength_cons quote other, lineLength_cons quote other,
        if_neg newline, if_neg closed, if_neg newline, if_neg closed]
      exact ih.cons c

theorem reaches_blockLength {quote : Char} (mark : isQuote quote = true) (text : List Char) :
    Reaches text (blockLength quote text) (blockLength quote (text ++ ['\n'])) := by
  induction text using blockLength.induct quote with
  | case1 =>
    have single : startsTriple quote ['\n'] = false := startsTriple_append_newline mark []
    rw [List.nil_append, blockLength_cons quote (by decide), single, if_neg Bool.false_ne_true]
    exact .inr ⟨rfl, rfl⟩
  | case2 c text ih => exact ih.append ['\\', c]
  | case3 c text follows triple =>
    have other : c ≠ '\\' := by
      obtain ⟨more, same⟩ := List.isPrefixOf_iff_prefix.mp triple
      exact (List.cons.inj same).1 ▸ ne_slash_of_isQuote mark
    have longer := startsTriple_append_newline mark (c :: text)
    rw [List.cons_append] at longer ⊢
    rw [blockLength_cons quote other, blockLength_cons quote other, longer, triple]
    exact .refl ..
  | case4 c text follows triple ih =>
    have longer := startsTriple_append_newline mark (c :: text)
    by_cases other : c = '\\'
    · cases text with
      | nil =>
        subst other
        rw [blockLength, if_neg triple]
        · exact .inr ⟨rfl, rfl⟩
        · rintro _ _ _ ⟨⟩
      | cons d text => exact (follows d text other rfl).elim
    · rw [List.cons_append] at longer ⊢
      rw [blockLength_cons quote other, blockLength_cons quote other, longer, if_neg triple,
        if_neg triple]
      exact ih.cons c

/-- A literal that is not closed takes the line end in, unless it ends with its line. -/
theorem rel_literalLength? (text : List Char) :
    Option.Rel (Reaches text) (literalLength? text) (literalLength? (text ++ ['\n'])) := by
  cases text with
  | nil => exact .none
  | cons c text =>
    cases mark : isQuote c with
    | false =>
      rw [List.cons_append, literalLength?_of_not_isQuote mark,
        literalLength?_of_not_isQuote mark]
      exact .none
    | true =>
      have longer := startsTriple_append_newline mark (c :: text)
      rw [List.cons_append] at longer ⊢
      rw [literalLength?, literalLength?, longer, mark, Bool.not_true, if_neg Bool.false_ne_true,
        if_neg Bool.false_ne_true]
      cases triple : startsTriple c (c :: text) with
      | false => exact .some ((reaches_lineLength mark text).cons c)
      | true =>
        obtain ⟨rest, rfl⟩ : ∃ rest, text = c :: c :: rest := by
          obtain ⟨rest, same⟩ := startsTriple_iff.mp triple
          exact ⟨rest, (List.cons.inj same).2.symm⟩
        exact .some ((reaches_blockLength mark rest).append [c, c, c])

/-! ### Comments and debug calls -/

theorem reaches_commentLength (text : List Char) :
    Reaches text (commentLength text) (commentLength (text ++ ['\n'])) := by
  induction text using commentLength.induct with
  | case1 => exact .inr ⟨rfl, rfl⟩
  | case2 rest => exact .refl ..
  | case3 c text follows ih =>
    have longer : commentLength (c :: text ++ ['\n']) = commentLength (text ++ ['\n']) + 1 := by
      rw [List.cons_append, commentLength]
      rintro rest rfl same
      cases text with
      | nil => cases same
      | cons d text =>
        obtain ⟨rfl, -⟩ := List.cons.inj same
        exact follows text rfl rfl
    rw [longer, commentLength]
    · exact ih.cons c
    · exact follows

theorem callLength?_nil (skip depth : Nat) : callLength? skip depth [] = none := by
  cases skip with
  | zero => rfl
  | succ skip => rfl

theorem callLength?_of_length_le {skip depth : Nat} {text : List Char} (long : text.length ≤ skip) :
    callLength? skip depth text = none := by
  induction text generalizing skip with
  | nil => exact callLength?_nil skip depth
  | cons c text ih =>
    cases skip with
    | zero => cases long
    | succ skip => rw [callLength?, ih (Nat.le_of_succ_le_succ long), Option.map_none]

/-- A call is closed before the line end, or not at all. -/
theorem callLength?_append_newline (skip depth : Nat) (text : List Char) :
    callLength? skip depth (text ++ ['\n']) = callLength? skip depth text := by
  induction text generalizing skip depth with
  | nil =>
    cases skip with
    | zero => rfl
    | succ skip => rw [callLength?_nil, callLength?_of_length_le (by simp)]
  | cons c text ih =>
    cases skip with
    | succ skip => rw [List.cons_append, callLength?, callLength?, ih]
    | zero =>
      have literal := rel_literalLength? (c :: text)
      rw [List.cons_append] at literal ⊢
      rw [callLength?, callLength?]
      generalize literalLength? (c :: text) = length at literal
      generalize literalLength? (c :: (text ++ ['\n'])) = longer at literal
      cases literal with
      | none => rw [ih, ih, ih]
      | some reaches =>
        rcases reaches with rfl | ⟨rfl, rfl⟩
        · exact congrArg (Option.map (· + 1)) (ih _ depth)
        · dsimp only
          rw [callLength?_of_length_le (by simp), callLength?_of_length_le (by simp)]

theorem debugLength?_append_newline (previous : Option Char) (text : List Char) :
    debugLength? previous (text ++ ['\n']) = debugLength? previous text := by
  have foreign : ∀ name ∈ debugNames, '\n' ∉ name := by decide
  have names : debugNames.find? (fun name => name.isPrefixOf (text ++ ['\n'])) =
      debugNames.find? fun name => name.isPrefixOf text :=
    List.find?_congr fun name mem => Text.isPrefixOf_append_cons (foreign name mem) text []
  rw [debugLength?, debugLength?, names]
  cases found : debugNames.find? (fun name => name.isPrefixOf text) with
  | none => rfl
  | some name =>
    have start : name.isPrefixOf text = true := by simpa using List.find?_some found
    obtain ⟨rest, rfl⟩ := List.isPrefixOf_iff_prefix.mp start
    have dropped : (name ++ rest ++ ['\n']).drop name.length = rest ++ ['\n'] := by
      rw [List.append_assoc, List.drop_left]
    have trimmed := Text.trimStart_append_blanks rest
      (show ∀ c ∈ ['\n'], Text.isBlank c = true by decide)
    simp only [Option.bind_some, dropped, List.drop_left, trimmed]
    cases shape : Text.trimStart rest with
    | nil => rfl
    | cons c arguments =>
      rw [if_neg (List.cons_ne_nil c arguments), List.cons_append]
      by_cases opening : c = '('
      · subst opening
        simp only [callLength?_append_newline, List.length_append, List.length_singleton,
          Nat.add_sub_add_right]
      · split
        · rfl
        · split
          · next same => exact absurd (List.cons.inj same).1 opening
          · split
            · next same => exact absurd (List.cons.inj same).1 opening
            · rfl

theorem takeWhile_append_newline (text : List Char) :
    (text ++ ['\n']).takeWhile (· != '\n') = text.takeWhile (· != '\n') := by
  induction text with
  | nil => rfl
  | cons c text ih => rw [List.cons_append, List.takeWhile_cons, List.takeWhile_cons, ih]

theorem rel_noiseLength? (previous : Option Char) (text : List Char) :
    Option.Rel (Reaches text) (noiseLength? previous text)
      (noiseLength? previous (text ++ ['\n'])) := by
  have debug : Option.Rel (Reaches text) (debugLength? previous text)
      (debugLength? previous (text ++ ['\n'])) := by
    rw [debugLength?_append_newline]
    cases debugLength? previous text with
    | none => exact .none
    | some length => exact .some (.refl ..)
  cases text with
  | nil => exact debug
  | cons c text =>
    by_cases slash : c = '/'
    · subst slash
      cases text with
      | nil => exact debug
      | cons d rest =>
        by_cases star : d = '*'
        · subst star
          exact .some ((reaches_commentLength rest).append ['/', '*'])
        by_cases double : d = '/'
        · subst double
          rw [List.cons_append, List.cons_append, noiseLength?, noiseLength?,
            takeWhile_append_newline]
          split
          · exact .none
          · exact .some (.refl ..)
        have code (tail : List Char) : noiseLength? previous ('/' :: d :: tail) =
            debugLength? previous ('/' :: d :: tail) := by
          rw [noiseLength?]
          · rintro _ same
            exact star (List.cons.inj (List.cons.inj same).2).1
          · rintro _ same
            exact double (List.cons.inj (List.cons.inj same).2).1
        rw [List.cons_append, List.cons_append] at debug ⊢
        rw [code, code]
        exact debug
    · rw [List.cons_append, noiseLength?_of_ne slash, noiseLength?_of_ne slash]
      exact debug

/-! ### Passages -/

theorem passage_append_newline (previous : Option Char) (text : List Char) :
    (passage previous (text ++ ['\n'])).1 = (passage previous text).1 ∧
      Reaches text (passage previous text).2 (passage previous (text ++ ['\n'])).2 := by
  have literal := rel_literalLength? text
  have noise := rel_noiseLength? previous text
  rw [passage, passage]
  generalize literalLength? text = length at literal
  generalize literalLength? (text ++ ['\n']) = longer at literal
  cases literal with
  | some reaches => exact ⟨rfl, reaches⟩
  | none =>
    generalize noiseLength? previous text = length at noise
    generalize noiseLength? previous (text ++ ['\n']) = longer at noise
    cases noise with
    | some reaches => exact ⟨rfl, reaches⟩
    | none => exact ⟨rfl, .refl ..⟩

/-! ### Scripts -/

theorem withoutNoiseFrom_length (previous : Option Char) (kept : Bool) (part : List Char) :
    withoutNoiseFrom previous kept part.length part = if kept then part else [] := by
  have none (last : Option Char) : withoutNoiseFrom last true 0 [] = [] := rfl
  cases kept with
  | true =>
    have whole := withoutNoiseFrom_kept previous part []
    rwa [List.append_nil, none, List.append_nil] at whole
  | false =>
    have whole := withoutNoiseFrom_dropped previous part []
    rwa [List.append_nil, none] at whole

/-- What is left of a script with a line end after it is what is left of the script, with the line
end or without it. The induction is on the script; in the passage that goes up to its end, the line
end is what follows, or it belongs to the passage as well. -/
theorem withoutNoiseFrom_append_newline (previous : Option Char) (kept : Bool) (left : Nat)
    (text : List Char) :
    ∃ lineEnd, (lineEnd = [] ∨ lineEnd = ['\n']) ∧
      withoutNoiseFrom previous kept left (text ++ ['\n']) =
        withoutNoiseFrom previous kept left text ++ lineEnd := by
  induction text generalizing previous kept left with
  | nil =>
    cases left with
    | zero =>
      have own : passage previous ['\n'] = (true, 1) :=
        passage_of_isPlain (show isPlain ['\n'] = true by decide) previous []
      refine ⟨['\n'], .inr rfl, ?_⟩
      rw [List.nil_append, withoutNoiseFrom, withoutNoiseFrom, own]
      rfl
    | succ left =>
      cases kept with
      | false => exact ⟨[], .inl rfl, by simp [withoutNoiseFrom]⟩
      | true => exact ⟨['\n'], .inr rfl, by simp [withoutNoiseFrom]⟩
  | cons c text ih =>
    cases left with
    | succ left =>
      obtain ⟨lineEnd, shape, rest⟩ := ih (some c) kept left
      refine ⟨lineEnd, shape, ?_⟩
      rw [List.cons_append, withoutNoiseFrom, withoutNoiseFrom, rest]
      cases kept with
      | false => rfl
      | true => rfl
    | zero =>
      obtain ⟨same, reaches⟩ := passage_append_newline previous (c :: text)
      rw [List.cons_append] at same reaches ⊢
      rw [withoutNoiseFrom, withoutNoiseFrom]
      generalize passage previous (c :: text) = own at same reaches ⊢
      generalize passage previous (c :: (text ++ ['\n'])) = longer at same reaches ⊢
      obtain ⟨_, length⟩ := own
      obtain ⟨kept, longer⟩ := longer
      obtain rfl := same
      dsimp only at reaches ⊢
      -- Another passage follows this one, or both texts end with it.
      rcases reaches with rfl | ⟨rfl, rfl⟩
      · obtain ⟨lineEnd, shape, rest⟩ := ih (some c) kept (longer - 1)
        refine ⟨lineEnd, shape, ?_⟩
        rw [rest]
        cases kept with
        | false => rfl
        | true => rfl
      · have whole := withoutNoiseFrom_length (some c) kept text
        have more := withoutNoiseFrom_length (some c) kept (text ++ ['\n'])
        rw [List.length_append, List.length_singleton] at more
        rw [List.length_cons, Nat.add_sub_cancel, Nat.add_sub_cancel, whole, more]
        cases kept with
        | false => exact ⟨[], .inl rfl, rfl⟩
        | true => exact ⟨['\n'], .inr rfl, rfl⟩

theorem withoutPlaceholders_append_newline (text : List Char) :
    withoutPlaceholders (text ++ ['\n']) = withoutPlaceholders text ++ ['\n'] := by
  have foreign : ∀ word ∈ placeholders, word ≠ [] ∧ '\n' ∉ word := by decide
  unfold withoutPlaceholders
  generalize placeholders = words at foreign
  induction words generalizing text with
  | nil => rfl
  | cons word words ih =>
    obtain ⟨own, foreign⟩ := List.forall_mem_cons.mp foreign
    rw [List.foldl_cons, List.foldl_cons, Text.remove_append_singleton own.1 own.2, ih _ foreign]

theorem tidyLines_append_newline_eq (text : List Char) :
    tidyLines (text ++ ['\n']) = tidyLines text :=
  congrArg Text.joinLines (Text.tidyRows_append_of_blank text (List.forall_mem_singleton.mpr rfl))

/-- A line end at the end of a script does not matter when it is cleaned. -/
theorem clean_append_newline (script : List Char) : clean (script ++ ['\n']) = clean script := by
  obtain ⟨lineEnd, shape, kept⟩ := withoutNoiseFrom_append_newline none true 0 script
  rw [clean, withoutNoise, kept, clean, withoutNoise]
  rcases shape with rfl | rfl
  · rw [List.append_nil]
  · rw [withoutPlaceholders_append_newline, tidyLines_append_newline_eq]

/-! ### First characters -/

/-- The words that are looked for in code. -/
def words : List (List Char) := debugNames ++ placeholders

theorem isPrefixOf_of_mem_words {word : List Char} (mem : word ∈ words) {c : Char}
    (other : ∀ word ∈ words, c ∉ word.head?) (text : List Char) :
    word.isPrefixOf (c :: text) = false := by
  cases word with
  | nil => exact absurd mem (by decide)
  | cons letter word =>
    have differ : letter ≠ c := fun same => other _ mem (congrArg some same)
    simp [List.isPrefixOf, differ]

theorem exists_withoutPlaceholders_cons {c : Char} (other : ∀ word ∈ words, c ∉ word.head?)
    (text : List Char) : ∃ rest, withoutPlaceholders (c :: text) = c :: rest := by
  have apart (word : List Char) (mem : word ∈ placeholders) :=
    isPrefixOf_of_mem_words (List.mem_append_right _ mem) other
  unfold withoutPlaceholders
  generalize placeholders = words at apart
  induction words generalizing text with
  | nil => exact ⟨text, rfl⟩
  | cons word words ih =>
    obtain ⟨own, apart⟩ := List.forall_mem_cons.mp apart
    rw [List.foldl_cons, Text.remove, Text.removeFrom, own, if_neg Bool.false_ne_true]
    exact ih _ apart

/-- A visible character at the start of a script stays there when it begins no literal, no comment
and no word. -/
theorem exists_clean_cons {c : Char} (visible : Text.isBlank c = false) (quote : isQuote c = false)
    (slash : c ≠ '/') (other : ∀ word ∈ words, c ∉ word.head?) (text : List Char) :
    ∃ rest, clean (c :: text) = c :: rest := by
  have code : withoutNoise (c :: text) = c :: withoutNoiseFrom (some c) true 0 text :=
    withoutNoiseFrom_cons_of_kept <| passage_of_nameless quote slash
      (fun _ mem => isPrefixOf_of_mem_words (List.mem_append_left _ mem) other text) none
  obtain ⟨named, kept⟩ :=
    exists_withoutPlaceholders_cons other (withoutNoiseFrom (some c) true 0 text)
  obtain ⟨row, rows, shape⟩ := Text.exists_tidyRows_cons visible named
  rw [clean, code, kept, tidyLines, ← Text.tidyRows, shape]
  by_cases last : rows = []
  · exact ⟨row, by rw [last, Text.joinLines, List.intercalate_singleton]⟩
  · exact ⟨_, by rw [Text.joinLines_cons _ last, List.cons_append]⟩

end CiTranslate.Groovy

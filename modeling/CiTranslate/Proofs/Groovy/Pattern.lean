import CiTranslate.Groovy.Pattern
import CiTranslate.Groovy.Stage
import CiTranslate.Proofs.Groovy.LiteralEnd

/-!
Cleaning and reading end literals at the same place.

Reading takes the literal that the pattern finds first (`rest?_quotedPattern`). Between quotes the
pattern never has to go back, as what it repeats there matches in one way at most, and ends with the
literal. So it ends a closed literal where the scan over the bytes of a script does
(`literal_ends_agree`).
-/

namespace CiTranslate.Groovy

open Text (utf8 byteLength)

/-! ### Matches -/

namespace Pattern

theorem rest?_either (first second : Pattern) (text : List Char) :
    (first.either second).rest? text = (first.rest? text).or (second.rest? text) :=
  List.head?_append

/-- After a part with one match, what follows is matched there. -/
theorem rest?_seq_of_singleton {first : Pattern} {text rest : List Char}
    (own : first.rests text = [rest]) (second : Pattern) :
    (first.seq second).rest? text = second.rest? rest := by
  rw [rest?, rests, own, List.flatMap_singleton, rest?]

theorem rest?_seq_of_nil {first : Pattern} {text : List Char} (missed : first.rests text = [])
    (second : Pattern) : (first.seq second).rest? text = none := by
  rw [rest?, rests, missed, List.flatMap_nil, List.head?_nil]

/-- A part that does not match is not repeated. -/
theorem rest?_many_of_nil {part : Pattern} {text : List Char} (missed : part.rests text = [])
    (greedy : Bool) (last : Pattern) :
    ((many greedy part).seq last).rest? text = last.rest? text := by
  have once : repeated greedy part.rests text = [text] := by
    rw [repeated, missed]
    cases greedy with
    | false => rfl
    | true => rfl
  rw [rest?, rests, rests, once, List.flatMap_singleton, rest?]

/-- When a part has one match, a greedy pattern first tries to go on there, and another one first
tries to end. -/
theorem rest?_many_of_singleton {part : Pattern} {text rest : List Char}
    (own : part.rests text = [rest]) (shorter : rest.length < text.length) (greedy : Bool)
    (last : Pattern) :
    ((many greedy part).seq last).rest? text =
      if greedy then (((many greedy part).seq last).rest? rest).or (last.rest? text)
      else (last.rest? text).or (((many greedy part).seq last).rest? rest) := by
  have more : repeated greedy part.rests text =
      if greedy then repeated greedy part.rests rest ++ [text]
      else text :: repeated greedy part.rests rest := by
    rw [repeated, own, List.flatMap_singleton, dif_pos shorter]
  rw [rest?, rests, rests, more]
  cases greedy with
  | false => exact List.head?_append
  | true =>
    rw [if_pos rfl, if_pos rfl, List.flatMap_append, List.head?_append, List.flatMap_singleton]
    rfl

theorem rests_char_nil (c : Char) : (char c).rests [] = [] := rfl

theorem rests_char (c d : Char) (text : List Char) :
    (char c).rests (d :: text) = if d == c then [text] else [] := rfl

theorem rest?_char (c d : Char) (text : List Char) :
    (char c).rest? (d :: text) = if d == c then some text else none := by
  rw [rest?, rests_char]
  split
  · rfl
  · rfl

theorem rests_char_seq (c : Char) (pattern : Pattern) (d : Char) (text : List Char) :
    ((char c).seq pattern).rests (d :: text) = if d == c then pattern.rests text else [] := by
  rw [rests, rests_char]
  split
  · exact List.flatMap_singleton ..
  · rfl

end Pattern

/-! ### Signs -/

theorem rests_blockSign {c : Char} (plain : c ≠ '\\') (text : List Char) :
    blockSign.rests (c :: text) = [text] := by
  simp [blockSign, signPattern, Pattern.rests, Pattern.rests_char, plain]

theorem rests_blockSign_escaped (c : Char) (text : List Char) :
    blockSign.rests ('\\' :: c :: text) = [text] := by
  simp [blockSign, signPattern, Pattern.rests, Pattern.rests_char]

theorem rests_lineSign {c : Char} (plain : c ≠ '\\') (quote : Char) (text : List Char) :
    (lineSign quote).rests (c :: text) = if c == '\n' || c == quote then [] else [text] := by
  simp [lineSign, signPattern, Pattern.rests, Pattern.rests_char, plain, ← not_or,
    @or_comm (c = quote)]

theorem rests_lineSign_escaped (quote c : Char) (text : List Char) :
    (lineSign quote).rests ('\\' :: c :: text) = if c == '\n' then [] else [text] := by
  simp [lineSign, signPattern, Pattern.rests, Pattern.rests_char]

theorem rests_lineSign_slash (quote : Char) : (lineSign quote).rests ['\\'] = [] := by
  simp [lineSign, signPattern, Pattern.rests, Pattern.rests_char]

theorem startsTriple_of_ne {quote c : Char} (other : c ≠ quote) (text : List Char) :
    startsTriple quote (c :: text) = false := by
  simp [startsTriple, List.isPrefixOf, other.symm]

theorem rests_triplePattern (quote : Char) (text : List Char) :
    (triplePattern quote).rests text = if startsTriple quote text then [text.drop 3] else [] := by
  have nil (pattern : Pattern) : ((Pattern.char quote).seq pattern).rests [] = [] := rfl
  match text with
  | [] => rfl
  | [c] => simp [triplePattern, Pattern.rests_char_seq, nil, startsTriple, List.isPrefixOf]
  | [c, d] =>
    simp [triplePattern, Pattern.rests_char_seq, Pattern.rests_char_nil, startsTriple,
      List.isPrefixOf]
  | c :: d :: e :: text =>
    simp [triplePattern, Pattern.rests_char_seq, Pattern.rests_char, startsTriple, List.isPrefixOf,
      ← ite_and, @eq_comm _ quote]

theorem rest?_triplePattern_seq (quote : Char) (pattern : Pattern) (text : List Char) :
    ((triplePattern quote).seq pattern).rest? text =
      if startsTriple quote text then pattern.rest? (text.drop 3) else none := by
  have first := rests_triplePattern quote text
  split
  · next triple =>
    rw [if_pos triple] at first
    exact Pattern.rest?_seq_of_singleton first pattern
  · next other =>
    rw [if_neg other] at first
    exact Pattern.rest?_seq_of_nil first pattern

theorem rest?_triplePattern (quote : Char) (text : List Char) :
    (triplePattern quote).rest? text =
      if startsTriple quote text then some (text.drop 3) else none := by
  rw [Pattern.rest?, rests_triplePattern]
  split <;> rfl

/-! ### Literals -/

/-- A block is closed by the first three quotes that are not escaped. -/
theorem rest?_blockRest {quote : Char} (mark : isQuote quote = true) (text : List Char) :
    (blockRest quote).rest? text = (closedBlock? quote text).map text.drop := by
  have foreign (text : List Char) : startsTriple quote ('\\' :: text) = false :=
    startsTriple_of_ne (ne_slash_of_isQuote mark).symm text
  unfold blockRest
  induction text using closedBlock?.induct quote with
  | case1 =>
    rw [Pattern.rest?_many_of_nil rfl, rest?_triplePattern]
    rfl
  | case2 c text ih =>
    have own := rests_blockSign_escaped c text
    have shorter : text.length < ('\\' :: c :: text).length :=
      Nat.lt_add_of_pos_right Nat.two_pos
    rw [Pattern.rest?_many_of_singleton own shorter, rest?_triplePattern, foreign, ih,
      closedBlock?, Option.map_map]
    rfl
  | case3 c text single triple =>
    have plain : c ≠ '\\' := by
      rintro rfl
      rw [foreign] at triple
      cases triple
    rw [Pattern.rest?_many_of_singleton (rests_blockSign plain text) (by simp),
      rest?_triplePattern, closedBlock?_cons plain, triple]
    rfl
  | case4 c text single other slash =>
    obtain rfl := eq_of_beq slash
    obtain rfl : text = [] := by
      cases text with
      | nil => rfl
      | cons d text => exact (single d text rfl rfl).elim
    rw [Pattern.rest?_many_of_nil rfl, rest?_triplePattern, closedBlock?, if_neg other,
      if_pos slash, if_neg other]
    · rfl
    · exact single
  | case5 c text single other differ ih =>
    have plain : c ≠ '\\' := by simpa using differ
    rw [Pattern.rest?_many_of_singleton (rests_blockSign plain text) (by simp),
      rest?_triplePattern, closedBlock?_cons plain, if_neg other, if_neg other, ih, Option.map_map]
    rfl

theorem rest?_lineRest {quote : Char} (mark : isQuote quote = true) (text : List Char) :
    (lineRest quote).rest? text = (closedLine? quote text).map text.drop := by
  have apart : ('\\' == quote) = false := by simpa using (ne_slash_of_isQuote mark).symm
  unfold lineRest
  induction text using closedLine?.induct quote with
  | case1 =>
    rw [Pattern.rest?_many_of_nil rfl]
    rfl
  | case2 c text newline =>
    have own := rests_lineSign_escaped quote c text
    rw [if_pos newline] at own
    rw [Pattern.rest?_many_of_nil own, Pattern.rest?_char, apart, closedLine?, if_pos newline]
    rfl
  | case3 c text other ih =>
    have own := rests_lineSign_escaped quote c text
    rw [if_neg other] at own
    have shorter : text.length < ('\\' :: c :: text).length :=
      Nat.lt_add_of_pos_right Nat.two_pos
    rw [Pattern.rest?_many_of_singleton own shorter, Pattern.rest?_char, apart, ih,
      closedLine?, if_neg other, Option.map_map]
    exact Option.or_none
  | case4 c text single stop =>
    by_cases slash : c = '\\'
    · subst slash
      obtain rfl : text = [] := by
        cases text with
        | nil => rfl
        | cons d text => exact (single d text rfl rfl).elim
      rw [Pattern.rest?_many_of_nil (rests_lineSign_slash quote), Pattern.rest?_char, apart]
      rfl
    · obtain rfl : c = '\n' := by simpa [slash] using stop
      have differ : ('\n' == quote) = false := by simpa using (ne_newline_of_isQuote mark).symm
      rw [Pattern.rest?_many_of_nil (rests_lineSign slash quote text), Pattern.rest?_char, differ]
      rfl
  | case5 c text single other own =>
    obtain rfl := eq_of_beq own
    have stops := rests_lineSign (ne_slash_of_isQuote mark) c text
    rw [if_pos (by simp)] at stops
    rw [Pattern.rest?_many_of_nil stops, Pattern.rest?_char, closedLine?, if_neg other]
    · simp
    · exact single
  | case6 c text single other differ ih =>
    have plain : c ≠ '\\' := fun slash => other (by simp [slash])
    have inside : ¬(c == '\n') = true := fun newline => other (by simp [newline])
    have passed := rests_lineSign plain quote text
    rw [if_neg (by simp [inside, differ])] at passed
    rw [Pattern.rest?_many_of_singleton passed (by simp), Pattern.rest?_char, if_neg differ, ih,
      closedLine?_cons plain, if_neg inside, if_neg differ, Option.map_map]
    exact Option.or_none

theorem rest?_blockPattern {quote : Char} (mark : isQuote quote = true) (text : List Char) :
    (blockPattern quote).rest? text =
      if startsTriple quote text then
        (closedBlock? quote (text.drop 3)).map fun length => text.drop (length + 3)
      else none := by
  rw [blockPattern, rest?_triplePattern_seq, rest?_blockRest mark]
  simp only [List.drop_drop, Nat.add_comm 3]

theorem rest?_linePattern {quote : Char} (mark : isQuote quote = true) (c : Char)
    (text : List Char) :
    (linePattern quote).rest? (c :: text) =
      if c == quote then (closedLine? quote text).map text.drop else none := by
  rw [linePattern, Pattern.rest?, Pattern.rests_char_seq, ← rest?_lineRest mark]
  split
  · rfl
  · rfl

/-- Where there is a quote, a block comes before a literal on one line. -/
theorem map_drop_quotedLength? {quote : Char} (mark : isQuote quote = true) (text : List Char) :
    (quotedLength? (quote :: text)).map (quote :: text).drop =
      ((blockPattern quote).rest? (quote :: text)).or
        ((linePattern quote).rest? (quote :: text)) := by
  rw [quotedLength?, mark, Bool.not_true, if_neg Bool.false_ne_true, rest?_blockPattern mark,
    rest?_linePattern mark, if_pos (beq_self_eq_true quote), List.drop_succ_cons]
  cases startsTriple quote (quote :: text) with
  | false =>
    rw [if_neg Bool.false_ne_true, if_neg Bool.false_ne_true, Option.none_or, Option.map_map]
    rfl
  | true =>
    rw [if_pos rfl, if_pos rfl]
    cases closedBlock? quote (text.drop 2) with
    | some length => rfl
    | none =>
      rw [Option.map_none, Option.none_or, Option.map_map]
      rfl

/-- Literals are read up to where the pattern matches. -/
theorem rest?_quotedPattern (text : List Char) :
    quotedPattern.rest? text = (quotedLength? text).map text.drop := by
  cases text with
  | nil => rfl
  | cons c text =>
    have block {quote : Char} (mark : isQuote quote = true) (other : c ≠ quote) :
        (blockPattern quote).rest? (c :: text) = none := by
      rw [rest?_blockPattern mark, startsTriple_of_ne other, if_neg Bool.false_ne_true]
    have line {quote : Char} (mark : isQuote quote = true) (other : c ≠ quote) :
        (linePattern quote).rest? (c :: text) = none := by
      rw [rest?_linePattern mark, if_neg (by simpa using other)]
    simp only [quotedPattern, Pattern.rest?_either]
    cases mark : isQuote c with
    | false =>
      have single : c ≠ '\'' := ne_of_not_isQuote mark rfl
      have double : c ≠ '"' := ne_of_not_isQuote mark rfl
      rw [block rfl single, block rfl double, line rfl single, line rfl double, quotedLength?, mark]
      rfl
    | true =>
      rw [map_drop_quotedLength? mark]
      rcases eq_or_eq_of_isQuote mark with rfl | rfl
      · have other : '\'' ≠ '"' := by decide
        rw [block rfl other, line rfl other, Option.none_or, Option.or_none]
      · have other : '"' ≠ '\'' := by decide
        rw [block rfl other, line rfl other, Option.none_or, Option.none_or]

/-! ### The end of a block -/

theorem fitsBlock_nil (quote : Char) : FitsBlock quote [] where
  quotes found := absurd found.length_le (by simp)
  slashes := List.not_mem_nil

theorem FitsBlock.cons {quote : Char} {sign : Sign} {body : List Sign} (fits : FitsBlock quote body)
    (slash : sign ≠ .plain '\\')
    (other : ¬List.replicate 3 (.plain quote) <+: sign :: (body ++ [.plain quote, .plain quote])) :
    FitsBlock quote (sign :: body) where
  quotes found := (List.infix_cons_iff.mp found).elim other fits.quotes
  slashes mem := (List.mem_cons.mp mem).elim (fun same => slash same.symm) fits.slashes

/-- Of the quotes that follow three quotes, the first three that are not escaped close a literal. -/
theorem exists_fitsBlock (quote : Char) {body : List Sign} (slashes : .plain '\\' ∉ body)
    (rest : List Char) :
    ∃ first more, FitsBlock quote first ∧ spelled body ++ quote :: quote :: quote :: rest =
      spelled first ++ quote :: quote :: quote :: more := by
  induction body with
  | nil => exact ⟨[], rest, fitsBlock_nil quote, rfl⟩
  | cons sign body ih =>
    by_cases triple : startsTriple quote (spelled (sign :: body) ++ quote :: quote :: quote :: rest)
    · obtain ⟨more, whole⟩ := startsTriple_iff.mp triple
      exact ⟨[], more, fitsBlock_nil quote, whole.symm⟩
    · obtain ⟨first, more, fits, whole⟩ := ih fun mem => slashes (List.mem_cons_of_mem _ mem)
      have text : spelled (sign :: body) ++ quote :: quote :: quote :: rest =
          spelled (sign :: first) ++ quote :: quote :: quote :: more := by
        rw [spelled, List.flatMap_cons, List.append_assoc, ← spelled, whole, ← List.append_assoc]
        rfl
      have slash : sign ≠ .plain '\\' := by
        rintro rfl
        exact slashes (List.mem_cons_self ..)
      refine ⟨sign :: first, more, fits.cons slash fun found => triple ?_, text⟩
      obtain ⟨tail, same⟩ := found
      have own : List.replicate 3 quote ++ spelled tail =
          spelled (sign :: first) ++ [quote, quote] :=
        (congrArg spelled same).trans (spelled_append (sign :: first) _)
      refine startsTriple_iff.mpr ⟨spelled tail ++ quote :: more, ?_⟩
      rw [text, ← List.append_assoc, own, List.append_assoc]
      rfl

/-! ### Both ends -/

/-- Whether a literal ends in front of `rest` for both: for cleaning, which goes over the bytes of a
script, and for reading, which goes by the pattern. -/
structure BothEnd (before literal rest : List Char) : Prop where
  bytes : literalEnd? (utf8 (before ++ (literal ++ rest))) (byteLength before) =
    some (byteLength (before ++ literal))
  cleaning : literalLength? (literal ++ rest) = some literal.length
  pattern : quotedPattern.rest? (literal ++ rest) = some rest
  reading : takeQuoted? (literal ++ rest) = some (literal, rest)

theorem Literal.bothEnd (literal : Literal) (before : List Char) {rest : List Char}
    (opening : startsTriple literal.quote (literal.text ++ rest) = literal.isBlock) :
    BothEnd before literal.text rest where
  bytes := by
    rw [literalEnd?_utf8, literalLength?_of_startsTriple literal opening, Option.map_some,
      List.take_left]
  cleaning := literalLength?_of_startsTriple literal opening
  pattern := by
    rw [rest?_quotedPattern, quotedLength?_of_startsTriple literal opening, Option.map_some,
      List.drop_left]
  reading := by
    rw [takeQuoted?, quotedLength?_of_startsTriple literal opening, Option.map_some,
      List.take_left, List.drop_left]

/-- A closed literal ends right after its last quote for both, whatever is in front of it and
whatever follows, unless it is an empty one on a line in front of the same quote. Where three quotes
begin, and three that are not escaped follow, the first such three close a literal. -/
theorem literal_ends_agree (before : List Char) :
    (∀ (literal : Literal) (rest : List Char),
      startsTriple literal.quote (literal.text ++ rest) = literal.isBlock →
        BothEnd before literal.text rest) ∧
      ∀ quote, isQuote quote = true → ∀ body rest, .plain '\\' ∉ body →
        ∃ (literal : Literal) (more : List Char), literal.quote = quote ∧ literal.isBlock = true ∧
          quote :: quote :: quote :: (spelled body ++ quote :: quote :: quote :: rest) =
            literal.text ++ more ∧
          BothEnd before literal.text more := by
  constructor
  · intro literal rest opening
    exact literal.bothEnd before opening
  · intro quote mark body rest slashes
    obtain ⟨first, more, fits, whole⟩ := exists_fitsBlock quote slashes rest
    refine ⟨.block quote first mark fits, more, rfl, rfl, ?_, ?_⟩
    · rw [whole, Literal.text_block]
      simp
    · exact Literal.bothEnd _ before (startsTriple_triple quote _)

/-- An escaped quote in front of the one that closes a literal, and in front of those that close a
block with another literal after it. -/
theorem literal_ends_agree_quotes :
    literalEnd? (utf8 "sh \"\\\"\" x".toList) 3 = some 7 ∧
      quotedPattern.rest? "\"\\\"\" x".toList = some " x".toList ∧
      literalEnd? (utf8 "sh '''a\\'''''' x".toList) 3 = some 12 ∧
      quotedPattern.rest? "'''a\\'''''' x".toList = some "'' x".toList := by
  have fitsLine : FitsLine '"' [.escaped '"'] := by decide
  have fitsBlock : FitsBlock '\'' [.plain 'a', .escaped '\''] := by decide
  have line := (literal_ends_agree "sh ".toList).1 (.line '"' _ rfl fitsLine) " x".toList rfl
  have block :=
    (literal_ends_agree "sh ".toList).1 (.block '\'' _ rfl fitsBlock) "'' x".toList rfl
  exact ⟨line.bytes, line.pattern, block.bytes, block.pattern⟩

end CiTranslate.Groovy

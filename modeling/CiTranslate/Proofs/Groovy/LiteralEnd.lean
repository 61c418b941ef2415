import CiTranslate.Groovy.Scan
import CiTranslate.Proofs.Groovy.Ends
import CiTranslate.Proofs.Text.Offset

/-!
Literals measured over bytes.

At an offset between two characters, the scan over bytes ends a literal where the literal of the
characters ends (`literalEnd?_utf8`). This holds although a backslash takes only one byte along: the
other bytes of that character are none that a literal ends with.
-/

namespace CiTranslate.Groovy

open Text (utf8 byteLength isAscii)

/-! ### Bytes -/

/-- What the search for the end of a literal does at a byte. -/
theorem closingEnd_eq {bytes : List UInt8} {offset : Nat} {b : UInt8}
    (here : bytes[offset]? = some b) (quote : UInt8) (multiline : Bool) :
    closingEnd bytes quote multiline offset =
      if b == '\\'.toUInt8 then closingEnd bytes quote multiline (offset + 2)
      else if b == '\n'.toUInt8 && !multiline then offset
      else if b == quote then
        if !multiline then offset + 1
        else if tripleAt bytes quote offset then offset + 3
        else closingEnd bytes quote multiline (offset + 1)
      else closingEnd bytes quote multiline (offset + 1) := by
  obtain ⟨inside, rfl⟩ := List.getElem?_eq_some_iff.mp here
  rw [closingEnd, dif_pos inside]

/-- A byte with which no literal ends is passed over. -/
theorem closingEnd_plain {bytes : List UInt8} {offset : Nat} {b quote : UInt8} {multiline : Bool}
    (here : bytes[offset]? = some b) (slash : b ≠ '\\'.toUInt8)
    (newline : b = '\n'.toUInt8 → multiline = true) (other : b ≠ quote) :
    closingEnd bytes quote multiline offset = closingEnd bytes quote multiline (offset + 1) := by
  rw [closingEnd_eq here, if_neg (by simpa using slash), if_neg (by simpa using newline),
    if_neg (by simpa using other)]

/-- A backslash at the end of the script has no character to take along. -/
theorem closingEnd_lastEscape (quote : UInt8) (multiline : Bool) (before : List Char) :
    closingEnd (utf8 (before ++ ['\\'])) quote multiline (byteLength before) =
      byteLength (before ++ ['\\']) := by
  have outside : ¬byteLength before + 2 < (utf8 (before ++ ['\\'])).length := by
    rw [Text.length_utf8, Text.byteLength_append_of_isAscii rfl]
    omega
  rw [closingEnd_eq (Text.getElem?_utf8_of_isAscii rfl before []), if_pos (beq_self_eq_true _),
    closingEnd, dif_neg outside, Text.length_utf8]

/-! ### Quotes -/

theorem eq_or_eq_of_isQuote {quote : Char} (mark : isQuote quote = true) :
    quote = '\'' ∨ quote = '"' := by
  simpa [isQuote] using mark

theorem ne_of_not_isQuote {c quote : Char} (other : isQuote c = false)
    (mark : isQuote quote = true) : c ≠ quote := by
  rintro rfl
  rw [mark] at other
  cases other

section Quoted

variable {quote : Char} (mark : isQuote quote = true)

include mark

theorem isAscii_of_isQuote : isAscii quote = true := by
  rcases eq_or_eq_of_isQuote mark with rfl | rfl
  · rfl
  · rfl

theorem utf8Size_of_isQuote : quote.utf8Size = 1 :=
  Text.utf8Size_of_isAscii (isAscii_of_isQuote mark)

theorem tripleAt_utf8 (before after : List Char) :
    tripleAt (utf8 (before ++ after)) quote.toUInt8 (byteLength before) =
      startsTriple quote after := by
  have ascii : ∀ c ∈ [quote, quote, quote], isAscii c = true := by
    simp [isAscii_of_isQuote mark]
  rw [tripleAt, Text.utf8_append, ← Text.length_utf8, List.drop_left]
  exact Text.isPrefixOf_utf8 ascii after

/-- A character with which no literal ends is passed over. -/
theorem closingEnd_cons {c : Char} {multiline : Bool} (slash : c ≠ '\\')
    (newline : c = '\n' → multiline = true) (other : c ≠ quote) (before after : List Char) :
    closingEnd (utf8 (before ++ c :: after)) quote.toUInt8 multiline (byteLength before) =
      closingEnd (utf8 (before ++ c :: after)) quote.toUInt8 multiline
        (byteLength (before ++ [c])) := by
  exact Text.eq_of_passed (closingEnd _ quote.toUInt8 multiline) before after fun b mem here =>
    closingEnd_plain here (Text.ne_of_mem_utf8EncodeChar rfl slash mem)
      (fun own => newline ((Text.mem_utf8EncodeChar_iff rfl).mp (own ▸ mem)).symm)
      (Text.ne_of_mem_utf8EncodeChar (isAscii_of_isQuote mark) other mem)

/-- A backslash takes the character after it along. It only takes its first byte, but with the
others no literal ends. -/
theorem closingEnd_escape (multiline : Bool) (before : List Char) (c : Char)
    (after : List Char) :
    closingEnd (utf8 (before ++ '\\' :: c :: after)) quote.toUInt8 multiline (byteLength before) =
      closingEnd (utf8 (before ++ '\\' :: c :: after)) quote.toUInt8 multiline
        (byteLength (before ++ ['\\', c])) := by
  obtain ⟨b, more, shape⟩ := List.exists_cons_of_ne_nil (String.utf8EncodeChar_ne_nil (c := c))
  have foreign {a : Char} (ascii : isAscii a = true) {d : UInt8} (mem : d ∈ more) :
      d ≠ a.toUInt8 := by
    rintro rfl
    exact Text.not_mem_tail_utf8EncodeChar ascii c (shape ▸ mem)
  have bytes : utf8 (before ++ '\\' :: c :: after) =
      utf8 before ++ ['\\'.toUInt8, b] ++ more ++ utf8 after := by
    rw [Text.utf8_append, Text.utf8_cons, Text.utf8_cons, shape,
      Text.utf8EncodeChar_of_isAscii (c := '\\') rfl]
    simp
  have run := Text.eq_of_passed_bytes (closingEnd (utf8 (before ++ '\\' :: c :: after))
    quote.toUInt8 multiline) (utf8 before ++ ['\\'.toUInt8, b]) more (utf8 after)
    fun d mem here => closingEnd_plain (bytes ▸ here) (foreign rfl mem)
      (fun own => absurd own (foreign rfl mem)) (foreign (isAscii_of_isQuote mark) mem)
  have start : (utf8 before ++ ['\\'.toUInt8, b]).length = byteLength before + 2 := by simp
  have stop : (utf8 before ++ ['\\'.toUInt8, b] ++ more).length =
      byteLength (before ++ ['\\', c]) := by
    have size := congrArg List.length shape
    have slash : ('\\' : Char).utf8Size = 1 := rfl
    rw [String.length_utf8EncodeChar, List.length_cons] at size
    simp only [List.length_append, List.length_cons, List.length_nil, Text.length_utf8,
      Text.byteLength_append, Text.byteLength_cons, Text.byteLength_nil]
    omega
  rw [closingEnd_eq (Text.getElem?_utf8_of_isAscii rfl before (c :: after)),
    if_pos (beq_self_eq_true _), ← start, run, stop]

/-- What the search for the end of a literal does at a quote. -/
theorem closingEnd_quote (multiline : Bool) (before after : List Char) :
    closingEnd (utf8 (before ++ quote :: after)) quote.toUInt8 multiline (byteLength before) =
      if !multiline then byteLength before + 1
      else if startsTriple quote (quote :: after) then byteLength before + 3
      else closingEnd (utf8 (before ++ quote :: after)) quote.toUInt8 multiline
        (byteLength (before ++ [quote])) := by
  have slash : quote.toUInt8 ≠ '\\'.toUInt8 := by
    rcases eq_or_eq_of_isQuote mark with rfl | rfl
    · decide
    · decide
  have newline : quote.toUInt8 ≠ '\n'.toUInt8 := by
    rcases eq_or_eq_of_isQuote mark with rfl | rfl
    · decide
    · decide
  have here := Text.getElem?_utf8_of_isAscii (isAscii_of_isQuote mark) before after
  rw [closingEnd_eq here, if_neg (by simpa using slash), if_neg (by simp [newline]),
    if_pos (beq_self_eq_true _), tripleAt_utf8 mark,
    Text.byteLength_append_of_isAscii (isAscii_of_isQuote mark)]

/-- The end of a literal on one line, from a place inside of it. -/
theorem closingEnd_line (before after : List Char) :
    closingEnd (utf8 (before ++ after)) quote.toUInt8 false (byteLength before) =
      byteLength (before ++ after.take (lineLength quote after)) := by
  induction after using lineLength.induct quote generalizing before with
  | case1 =>
    rw [closingEnd, dif_neg (by simp)]
    simp
  | case2 c after ih =>
    have shape : before ++ '\\' :: c :: after = before ++ ['\\', c] ++ after := by simp
    rw [closingEnd_escape mark, lineLength, shape, ih (before ++ ['\\', c])]
    simp
  | case3 c after single newline =>
    obtain rfl := eq_of_beq newline
    have here := Text.getElem?_utf8_of_isAscii (c := '\n') rfl before after
    rw [closingEnd_eq here, if_neg (by decide), if_pos (by decide),
      lineLength_cons quote (by decide), if_pos newline, List.take_zero, List.append_nil]
  | case4 c after single inside own =>
    obtain rfl := eq_of_beq own
    rw [closingEnd_quote mark, if_pos (by decide), lineLength_cons c (ne_slash_of_isQuote mark),
      if_neg inside, if_pos own]
    simp [utf8Size_of_isQuote mark]
  | case5 c after single inside other ih =>
    -- A backslash that takes nothing along is the last character.
    by_cases slash : c = '\\'
    · cases after with
      | nil =>
        subst slash
        rw [closingEnd_lastEscape, lineLength, if_neg inside, if_neg other]
        · rfl
        · exact single
      | cons d after => exact (single d after slash rfl).elim
    · have shape : before ++ c :: after = before ++ [c] ++ after := by simp
      rw [closingEnd_cons mark slash (fun newline => absurd newline (by simpa using inside))
        (by simpa using other), lineLength_cons quote slash, if_neg inside, if_neg other, shape,
        ih (before ++ [c])]
      simp

/-- The end of a literal between three quotes, from a place inside of it. -/
theorem closingEnd_block (before after : List Char) :
    closingEnd (utf8 (before ++ after)) quote.toUInt8 true (byteLength before) =
      byteLength (before ++ after.take (blockLength quote after)) := by
  induction after using blockLength.induct quote generalizing before with
  | case1 =>
    rw [closingEnd, dif_neg (by simp)]
    simp
  | case2 c after ih =>
    have shape : before ++ '\\' :: c :: after = before ++ ['\\', c] ++ after := by simp
    rw [closingEnd_escape mark, blockLength, shape, ih (before ++ ['\\', c])]
    simp
  | case3 c after single triple =>
    obtain ⟨rest, whole⟩ := startsTriple_iff.mp triple
    obtain ⟨rfl, rfl⟩ := List.cons.inj whole
    rw [closingEnd_quote mark, if_neg (by decide), if_pos triple,
      blockLength_cons quote (ne_slash_of_isQuote mark), if_pos triple]
    simp [utf8Size_of_isQuote mark]
  | case4 c after single other ih =>
    have shape : before ++ c :: after = before ++ [c] ++ after := by simp
    -- As on one line, such a backslash is the last character.
    by_cases slash : c = '\\'
    · cases after with
      | nil =>
        subst slash
        rw [closingEnd_lastEscape, blockLength, if_neg other]
        · rfl
        · exact single
      | cons d after => exact (single d after slash rfl).elim
    · have passed :
          closingEnd (utf8 (before ++ c :: after)) quote.toUInt8 true (byteLength before) =
            closingEnd (utf8 (before ++ c :: after)) quote.toUInt8 true
              (byteLength (before ++ [c])) := by
        by_cases own : c = quote
        · subst own
          rw [closingEnd_quote mark, if_neg (by decide), if_neg other]
        · exact closingEnd_cons mark slash (fun _ => rfl) own before after
      rw [passed, blockLength_cons quote slash, if_neg other, shape, ih (before ++ [c])]
      simp

end Quoted

/-! ### Literals -/

/-- No byte of a character that is no quote is one. -/
theorem isQuoteByte_of_mem {c : Char} (other : isQuote c = false) {b : UInt8}
    (mem : b ∈ String.utf8EncodeChar c) : isQuoteByte b = false := by
  have differ {a : Char} (mark : isQuote a = true) : b ≠ a.toUInt8 :=
    Text.ne_of_mem_utf8EncodeChar (isAscii_of_isQuote mark) (ne_of_not_isQuote other mark) mem
  rw [isQuoteByte, beq_false_of_ne (differ rfl), beq_false_of_ne (differ rfl), Bool.or_false]

theorem isQuoteByte_toUInt8 {quote : Char} (mark : isQuote quote = true) :
    isQuoteByte quote.toUInt8 = true := by
  rcases eq_or_eq_of_isQuote mark with rfl | rfl
  · rfl
  · rfl

/-- Over bytes, a literal ends where the literal of the characters does. -/
theorem literalEnd?_utf8 (before after : List Char) :
    literalEnd? (utf8 (before ++ after)) (byteLength before) =
      (literalLength? after).map fun length => byteLength (before ++ after.take length) := by
  cases after with
  | nil =>
    rw [literalEnd?, List.getElem?_eq_none (by simp)]
    rfl
  | cons c after =>
    cases mark : isQuote c with
    | false =>
      obtain ⟨b, mem, here⟩ := Text.exists_getElem?_utf8 before c after
      rw [literalEnd?, here, Option.filter_some_neg (isQuoteByte_of_mem mark mem),
        literalLength?_of_not_isQuote mark]
      rfl
    | true =>
      have here := Text.getElem?_utf8_of_isAscii (isAscii_of_isQuote mark) before after
      have width := utf8Size_of_isQuote mark
      rw [literalEnd?, here, Option.filter_some_pos (isQuoteByte_toUInt8 mark), Option.map_some,
        tripleAt_utf8 mark, literalLength?, mark, Bool.not_true, if_neg Bool.false_ne_true]
      cases triple : startsTriple c (c :: after) with
      | true =>
        obtain ⟨rest, whole⟩ := startsTriple_iff.mp triple
        obtain rfl : c :: c :: rest = after := (List.cons.inj whole).2
        have inner := closingEnd_block mark (before ++ [c, c, c]) rest
        simpa [width] using inner
      | false =>
        have inner := closingEnd_line mark (before ++ [c]) after
        simpa [width] using inner

end CiTranslate.Groovy

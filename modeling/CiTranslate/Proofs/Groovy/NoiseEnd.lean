import CiTranslate.Proofs.Groovy.DebugCall
import CiTranslate.Proofs.Groovy.LiteralEnd
import CiTranslate.Proofs.Groovy.Passage
import CiTranslate.Proofs.Identifier

/-!
Calls and comments measured over bytes.

At an offset between two characters, the scan over bytes ends a call, a comment or a debug call
where that of the characters ends (`callEnd?_utf8`, `noiseEnd?_utf8`). Of the character in front of
the offset it sees the last byte only. That is enough, as all characters of more than one byte are
alike to it.
-/

namespace CiTranslate.Groovy

open Text (utf8 byteLength isAscii)

/-! ### Calls -/

/-- What the search for the end of a call does at a byte that begins no literal. -/
theorem callEnd?_eq {bytes : List UInt8} {offset : Nat} {b : UInt8}
    (here : bytes[offset]? = some b) (other : isQuoteByte b = false) (depth : Nat) :
    callEnd? bytes depth offset =
      if b == '('.toUInt8 then callEnd? bytes (depth + 1) (offset + 1)
      else if b == ')'.toUInt8 then
        if depth ≤ 1 then some (offset + 1) else callEnd? bytes (depth - 1) (offset + 1)
      else callEnd? bytes depth (offset + 1) := by
  have none : literalEnd? bytes offset = none := by
    rw [literalEnd?, here, Option.filter_some_neg other, Option.map_none]
  obtain ⟨inside, rfl⟩ := List.getElem?_eq_some_iff.mp here
  rw [callEnd?, dif_pos inside]
  split
  · next stop found =>
    rw [none] at found
    cases found
  · rfl

theorem callEnd?_of_literalEnd? {bytes : List UInt8} {offset stop : Nat}
    (found : literalEnd? bytes offset = some stop) (depth : Nat) :
    callEnd? bytes depth offset = callEnd? bytes depth stop := by
  obtain ⟨b, first, -⟩ := Option.map_eq_some_iff.mp found
  have inside := (List.getElem?_eq_some_iff.mp (Option.filter_eq_some_iff.mp first).1).1
  rw [callEnd?, dif_pos inside]
  split
  · next other same =>
    rw [found] at same
    cases same
    rfl
  · next none =>
    rw [found] at none
    cases none

/-- A byte that means nothing to a call is passed over. -/
theorem callEnd?_plain {bytes : List UInt8} {offset : Nat} {b : UInt8}
    (here : bytes[offset]? = some b) (unquoted : isQuoteByte b = false) (opening : b ≠ '('.toUInt8)
    (closing : b ≠ ')'.toUInt8) (depth : Nat) :
    callEnd? bytes depth offset = callEnd? bytes depth (offset + 1) := by
  rw [callEnd?_eq here unquoted, if_neg (by simpa using opening), if_neg (by simpa using closing)]

/-- A length that is counted from a later place on leads to the same offset. -/
theorem map_byteLength_take (before part rest : List Char) (found : Option Nat) :
    (found.map (· + part.length)).map (fun length =>
      byteLength (before ++ (part ++ rest).take length)) =
        found.map fun length => byteLength (before ++ part ++ rest.take length) := by
  rw [Option.map_map]
  congr 1
  funext length
  rw [Function.comp_apply, Nat.add_comm, List.take_length_add_append, List.append_assoc]

/-- A character that means nothing to a call is passed over. -/
theorem callEnd?_cons {c : Char} (unquoted : isQuote c = false) (opening : c ≠ '(')
    (closing : c ≠ ')') (depth : Nat) (before after : List Char) :
    callEnd? (utf8 (before ++ c :: after)) depth (byteLength before) =
      callEnd? (utf8 (before ++ c :: after)) depth (byteLength (before ++ [c])) := by
  exact Text.eq_of_passed (callEnd? _ depth) before after fun b mem here =>
    callEnd?_plain here (isQuoteByte_of_mem unquoted mem)
      (Text.ne_of_mem_utf8EncodeChar rfl opening mem)
      (Text.ne_of_mem_utf8EncodeChar rfl closing mem) depth

/-- Over bytes, a call ends where the call of the characters does. The induction is on the length of
the text, as a literal in the call is passed in one step. -/
theorem callEnd?_utf8 (depth : Nat) (before after : List Char) :
    callEnd? (utf8 (before ++ after)) depth (byteLength before) =
      (callLength? 0 depth after).map fun length => byteLength (before ++ after.take length) := by
  induction size : after.length using Nat.strongRecOn generalizing depth before after with
  | ind n ih =>
    subst size
    cases after with
    | nil =>
      rw [callEnd?, dif_neg (by simp), callLength?_nil]
      rfl
    | cons c after =>
      cases found : literalLength? (c :: after) with
      | some length =>
        obtain ⟨first, rest, whole, nonempty, rfl⟩ :=
          exists_append_of_length_le (literalLength?_bounds found)
        obtain ⟨d, part, rfl⟩ := List.exists_cons_of_ne_nil nonempty
        rw [List.cons_append] at whole
        obtain ⟨rfl, rfl⟩ := List.cons.inj whole
        have literal := literalEnd?_utf8 before (c :: (part ++ rest))
        have own : (c :: (part ++ rest)).take (c :: part).length = c :: part := List.take_left
        rw [found, Option.map_some, own] at literal
        have shorter : rest.length < (c :: (part ++ rest)).length := by
          rw [List.length_cons, List.length_append]
          omega
        have later := ih rest.length shorter depth (before ++ c :: part) rest rfl
        have shape : before ++ c :: (part ++ rest) = before ++ c :: part ++ rest := by simp
        rw [callEnd?_of_literalEnd? literal, callLength?, found, shape, later,
          ← map_byteLength_take]
        simp only [List.length_cons, Nat.add_sub_cancel]
        rw [callLength?_skip, Option.map_map, Option.map_map, Option.map_map]
        rfl
      | none =>
        have unquoted := isQuote_of_literalLength? found
        have shape : before ++ c :: after = before ++ [c] ++ after := by simp
        have later (depth : Nat) :
            callEnd? (utf8 (before ++ c :: after)) depth (byteLength (before ++ [c])) =
              ((callLength? 0 depth after).map (· + 1)).map fun length =>
                byteLength (before ++ (c :: after).take length) := by
          rw [shape, ih after.length (Nat.lt_succ_self _) depth (before ++ [c]) after rfl,
            ← map_byteLength_take]
          rfl
        rw [callLength?, found]
        by_cases opening : c = '('
        · subst opening
          have here := Text.getElem?_utf8_of_isAscii (c := '(') rfl before after
          have next := later (depth + 1)
          rw [Text.byteLength_append_of_isAscii rfl] at next
          rw [callEnd?_eq here rfl, if_pos (by decide), next]
          rfl
        · by_cases closing : c = ')'
          · subst closing
            have here := Text.getElem?_utf8_of_isAscii (c := ')') rfl before after
            have next := later (depth - 1)
            rw [Text.byteLength_append_of_isAscii rfl] at next
            rw [callEnd?_eq here rfl, if_neg (by decide), if_pos (by decide), next]
            by_cases last : depth ≤ 1
            · simp [last]
              rfl
            · simp [last]
          · rw [callEnd?_cons unquoted opening closing, later]
            simp [opening, closing]

/-! ### The character before an offset -/

/-- Two characters of which a scan cannot tell which one is before it: the same, or both large. -/
def Indistinct (c d : Char) : Prop := c = d ∨ isAscii c = false ∧ isAscii d = false

theorem startsName_of_not_isAscii {c : Char} (other : isAscii c = false) :
    startsName (some c) = true := by
  have large : 128 ≤ c.toNat := Nat.le_of_not_lt (of_decide_eq_false other)
  have alphanumeric : c.isAlphanum = false := by
    refine Bool.eq_false_iff.mpr fun own => ?_
    have letter : isIdentifierChar false c = true := by simp [isIdentifierChar, own]
    have small := toNat_of_isIdentifierChar letter
    omega
  have line : c ≠ '_' := by
    rintro rfl
    cases other
  have dot : c ≠ '.' := by
    rintro rfl
    cases other
  simp [startsName, alphanumeric, line, dot]

theorem startsName_eq_of_rel {previous byte : Option Char}
    (indistinct : Option.Rel Indistinct previous byte) : startsName byte = startsName previous := by
  cases indistinct with
  | none => rfl
  | some indistinct =>
    rcases indistinct with rfl | ⟨other, large⟩
    · rfl
    · rw [startsName_of_not_isAscii other, startsName_of_not_isAscii large]

theorem eq_colon_iff_of_rel {previous byte : Option Char}
    (indistinct : Option.Rel Indistinct previous byte) : byte = some ':' ↔ previous = some ':' := by
  cases indistinct with
  | none => rfl
  | some indistinct =>
    rcases indistinct with rfl | ⟨other, large⟩
    · rfl
    · constructor
      · rintro ⟨⟩
        cases large
      · rintro ⟨⟩
        cases other

/-- The byte before an offset is that of the character before it, or both are large. -/
theorem rel_previousAt (before after : List Char) :
    Option.Rel Indistinct before.getLast?
      (previousAt (utf8 (before ++ after)) (byteLength before)) := by
  rcases List.eq_nil_or_concat before with rfl | ⟨start, c, rfl⟩
  · exact .none
  · rw [List.concat_eq_append]
    obtain ⟨b, mem, here⟩ := Text.exists_getElem?_utf8_pred start c after
    have inside : (byteLength (start ++ [c]) == 0) = false := by simp [c.utf8Size_pos.ne']
    rw [previousAt, inside, if_neg Bool.false_ne_true, here, List.getLast?_concat]
    refine .some ?_
    cases ascii : isAscii c with
    | true =>
      rw [Text.utf8EncodeChar_of_isAscii ascii, List.mem_singleton] at mem
      refine .inl (Char.toNat_inj.mp ?_)
      rw [Text.toNat_ofUInt8, mem, Text.toNat_toUInt8 ascii]
    | false =>
      have large := Text.le_toNat_of_mem_utf8EncodeChar ascii mem
      refine .inr ⟨ascii, decide_eq_false (Nat.not_lt.mpr ?_)⟩
      rwa [Text.toNat_ofUInt8]

/-! ### Noise -/

section Named

variable {previous : Option Char} {name called : List Char}

theorem debugLength?_of_open (free : startsName previous = true)
    (named : debugNames.find? (·.isPrefixOf (name ++ called)) = some name) {arguments : List Char}
    (trimmed : Text.trimStart called = '(' :: arguments) :
    debugLength? previous (name ++ called) =
      (callLength? 0 1 arguments).map (· + ((name ++ called).length - arguments.length)) := by
  rw [debugLength?, free, Bool.not_true, if_neg Bool.false_ne_true, named]
  simp only [Option.bind_some, List.drop_left, trimmed]

theorem debugLength?_of_not_open (free : startsName previous = true)
    (named : debugNames.find? (·.isPrefixOf (name ++ called)) = some name)
    (closed : ¬∃ arguments, Text.trimStart called = '(' :: arguments) :
    debugLength? previous (name ++ called) = none := by
  rw [debugLength?, free, Bool.not_true, if_neg Bool.false_ne_true, named]
  simp only [Option.bind_some, List.drop_left]
  split
  · next arguments trimmed => exact absurd ⟨arguments, trimmed⟩ closed
  · rfl

end Named

/-- Over bytes, a debug call ends where the call of the characters does. -/
theorem debugEnd?_utf8 (before after : List Char) :
    debugEnd? (before ++ after) (byteLength before) =
      .ok ((debugLength? before.getLast? after).map fun length =>
        byteLength (before ++ after.take length)) := by
  rw [debugEnd?, startsName_eq_of_rel (rel_previousAt before after)]
  cases free : startsName before.getLast? with
  | false =>
    rw [debugLength?, free]
    rfl
  | true =>
    rw [Bool.not_true, if_neg Bool.false_ne_true, Text.slice_suffix, Text.ok_bind]
    cases named : debugNames.find? (·.isPrefixOf after) with
    | none =>
      rw [debugLength?, free, named]
      rfl
    | some name =>
      have start : name.isPrefixOf after = true := by simpa using List.find?_some named
      obtain ⟨called, rfl⟩ := List.isPrefixOf_iff_prefix.mp start
      simp only [Text.slice_suffix, Text.ok_bind]
      by_cases opening : ∃ arguments, Text.trimStart called = '(' :: arguments
      · obtain ⟨arguments, trimmed⟩ := opening
        rw [debugLength?_of_open free named trimmed]
        simp only [trimmed]
        obtain ⟨blanks, rfl⟩ : '(' :: arguments <:+ called :=
          trimmed ▸ List.dropWhile_suffix Text.isBlank
        have shape : name ++ (blanks ++ '(' :: arguments) =
            name ++ blanks ++ ['('] ++ arguments := by simp
        have offset :
            byteLength (before ++ (name ++ blanks ++ ['('] ++ arguments)) -
                byteLength ('(' :: arguments) + 1 =
              byteLength (before ++ (name ++ blanks ++ ['('])) := by
          simp only [Text.byteLength_append, Text.byteLength_cons]
          have width : ('(' : Char).utf8Size = 1 := rfl
          omega
        have width : (name ++ blanks ++ ['('] ++ arguments).length - arguments.length =
            (name ++ blanks ++ ['(']).length := by
          rw [List.length_append, Nat.add_sub_cancel]
        rw [shape, offset, width, map_byteLength_take, ← List.append_assoc before, callEnd?_utf8]
      · rw [debugLength?_of_not_open free named opening]
        split
        · next arguments trimmed => exact absurd ⟨arguments, trimmed⟩ opening
        · rfl

/-- A comment ends with the first end mark. -/
theorem byteLength_take_commentLength (text : List Char) :
    byteLength (text.take (commentLength text)) =
      (Text.offset? ['*', '/'] text).elim (byteLength text) (· + 2) := by
  induction text using commentLength.induct with
  | case1 => rfl
  | case2 rest => rfl
  | case3 c text other ih =>
    have absent : ['*', '/'].isPrefixOf (c :: text) = false := by
      refine Bool.eq_false_iff.mpr fun start => ?_
      obtain ⟨rest, whole⟩ := List.isPrefixOf_iff_prefix.mp start
      obtain ⟨rfl, rfl⟩ := List.cons.inj whole
      exact other rest rfl rfl
    rw [commentLength, List.take_succ_cons, Text.byteLength_cons, ih, Text.offset?, absent,
      if_neg Bool.false_ne_true, Text.byteLength_cons]
    · cases Text.offset? ['*', '/'] text with
      | none => rfl
      | some offset => simp only [Option.map_some, Option.elim_some]; omega
    · exact other

/-- A line ends before the first line end. -/
theorem byteLength_takeWhile (text : List Char) :
    byteLength (text.takeWhile (· != '\n')) =
      (Text.offset? ['\n'] text).elim (byteLength text) id := by
  induction text with
  | nil => rfl
  | cons c text ih =>
    by_cases newline : c = '\n'
    · subst newline
      rfl
    · have absent : ['\n'].isPrefixOf (c :: text) = false := by
        simp [List.isPrefixOf, Ne.symm newline]
      rw [List.takeWhile_cons, if_pos (by simpa using newline), Text.byteLength_cons, ih,
        Text.offset?, absent, if_neg Bool.false_ne_true, Text.byteLength_cons]
      cases Text.offset? ['\n'] text with
      | none => rfl
      | some offset => exact Nat.add_comm ..

/-- Over bytes, a comment or debug call ends where that of the characters does. -/
theorem noiseEnd?_utf8 (before after : List Char) :
    noiseEnd? (before ++ after) (byteLength before) after =
      .ok ((noiseLength? before.getLast? after).map fun length =>
        byteLength (before ++ after.take length)) := by
  rw [noiseEnd?]
  by_cases block : ['/', '*'].isPrefixOf after = true
  · obtain ⟨rest, rfl⟩ : ∃ rest, '/' :: '*' :: rest = after := List.isPrefixOf_iff_prefix.mp block
    have taken : Text.slice ('/' :: '*' :: rest) 2 (byteLength ('/' :: '*' :: rest)) = .ok rest :=
      Text.slice_suffix ['/', '*'] rest
    rw [if_pos block, taken, Text.ok_bind, noiseLength?, Option.map_some, List.take_succ_cons,
      List.take_succ_cons]
    simp only [Text.byteLength_append, Text.byteLength_cons, byteLength_take_commentLength]
    refine congrArg (Except.ok ∘ some) ?_
    cases Text.offset? ['*', '/'] rest with
    | none => rfl
    | some offset =>
      have slash : ('/' : Char).utf8Size = 1 := rfl
      have star : ('*' : Char).utf8Size = 1 := rfl
      simp only [Option.elim_some]
      omega
  · by_cases line : ['/', '/'].isPrefixOf after = true
    · obtain ⟨rest, rfl⟩ : ∃ rest, '/' :: '/' :: rest = after := List.isPrefixOf_iff_prefix.mp line
      have colon := eq_colon_iff_of_rel (rel_previousAt before ('/' :: '/' :: rest))
      rw [if_neg block, line, Bool.true_and, noiseLength?]
      by_cases address : before.getLast? = some ':'
      · have plain : debugLength? before.getLast? ('/' :: '/' :: rest) = none := by
          rw [debugLength?, address]
          rfl
        rw [colon.mpr address, debugEnd?_utf8, plain, address]
        rfl
      · have inside : rest.take (rest.takeWhile (· != '\n')).length = rest.takeWhile (· != '\n') :=
          (List.prefix_iff_eq_take.mp (List.takeWhile_prefix _)).symm
        have skipped : Text.offset? ['\n'] ('/' :: '/' :: rest) =
            (Text.offset? ['\n'] rest).map (· + 2) := by
          rw [Text.offset?, Text.offset?]
          cases Text.offset? ['\n'] rest with
          | none => rfl
          | some offset => rfl
        rw [if_pos (by simpa using mt colon.mp address), if_neg (by simpa using address), skipped,
          Option.map_some, List.take_succ_cons, List.take_succ_cons, inside]
        simp only [Text.byteLength_append, Text.byteLength_cons, byteLength_takeWhile]
        refine congrArg (Except.ok ∘ some) ?_
        have slash : ('/' : Char).utf8Size = 1 := rfl
        cases Text.offset? ['\n'] rest with
        | none => rfl
        | some offset =>
          simp only [Option.elim_some, Option.map_some, id]
          omega
    · have debug : noiseLength? before.getLast? after = debugLength? before.getLast? after := by
        rw [noiseLength?]
        · rintro rest rfl
          exact block rfl
        · rintro rest rfl
          exact line rfl
      rw [if_neg block, if_neg (by simp [line]), debugEnd?_utf8, debug]

end CiTranslate.Groovy

import CiTranslate.Text.Offset

/-!
Offsets between characters.

The UTF-8 form of a text is that of its characters one after the other, so that the places between
two characters are the lengths of the beginnings of the text (`onBoundary_iff`), and between any two
such places there is a part of the text (`exists_slice_iff`).

A byte below 128 is a character of its own and no part of another one (`mem_utf8EncodeChar_iff`).
-/

namespace CiTranslate.Text

/-! ### Bytes -/

@[simp] theorem utf8_nil : utf8 [] = [] := rfl

@[simp] theorem utf8_cons (c : Char) (text : List Char) :
    utf8 (c :: text) = String.utf8EncodeChar c ++ utf8 text := rfl

@[simp] theorem utf8_append (before after : List Char) :
    utf8 (before ++ after) = utf8 before ++ utf8 after :=
  List.flatMap_append

@[simp] theorem length_utf8 (text : List Char) : (utf8 text).length = byteLength text := by
  induction text with
  | nil => rfl
  | cons c text ih =>
    rw [utf8_cons, List.length_append, ih, String.length_utf8EncodeChar, byteLength_cons]

def isAscii (c : Char) : Bool := c.toNat < 128

theorem utf8EncodeChar_of_isAscii {c : Char} (ascii : isAscii c = true) :
    String.utf8EncodeChar c = [c.toUInt8] := by
  have small : c.toNat < 128 := of_decide_eq_true ascii
  exact if_pos (Nat.le_of_lt_succ small)

theorem le_toNat_ofNat {n : Nat} (low : 128 ≤ n) (high : n < 256) : 128 ≤ (UInt8.ofNat n).toNat :=
  Nat.le_trans low (Nat.le_of_eq (UInt8.toNat_ofNat_of_lt' high).symm)

/-- The bytes of other characters are large. -/
theorem le_toNat_of_mem_utf8EncodeChar {c : Char} (other : isAscii c = false) {b : UInt8}
    (mem : b ∈ String.utf8EncodeChar c) : 128 ≤ b.toNat := by
  have large : ¬c.val.toNat ≤ 127 := fun small =>
    of_decide_eq_false other (Nat.lt_succ_of_le small)
  rw [String.utf8EncodeChar, if_neg large] at mem
  split at mem
  · simp only [List.mem_cons, List.not_mem_nil, or_false] at mem
    rcases mem with rfl | rfl <;> exact le_toNat_ofNat (by omega) (by omega)
  · split at mem
    · simp only [List.mem_cons, List.not_mem_nil, or_false] at mem
      rcases mem with rfl | rfl | rfl <;> exact le_toNat_ofNat (by omega) (by omega)
    · simp only [List.mem_cons, List.not_mem_nil, or_false] at mem
      rcases mem with rfl | rfl | rfl | rfl <;> exact le_toNat_ofNat (by omega) (by omega)

theorem toNat_toUInt8 {c : Char} (ascii : isAscii c = true) : c.toUInt8.toNat = c.toNat := by
  have small : c.toNat < 128 := of_decide_eq_true ascii
  exact Nat.mod_eq_of_lt (Nat.lt_trans small (by decide))

theorem toNat_ofUInt8 (b : UInt8) : (Char.ofUInt8 b).toNat = b.toNat := b.toNat_toUInt32

theorem mem_utf8EncodeChar_iff {a c : Char} (ascii : isAscii a = true) :
    a.toUInt8 ∈ String.utf8EncodeChar c ↔ a = c := by
  constructor
  · intro mem
    cases own : isAscii c with
    | true =>
      rw [utf8EncodeChar_of_isAscii own, List.mem_singleton] at mem
      have same := congrArg UInt8.toNat mem
      rw [toNat_toUInt8 ascii, toNat_toUInt8 own] at same
      exact Char.toNat_inj.mp same
    | false =>
      have large := le_toNat_of_mem_utf8EncodeChar own mem
      rw [toNat_toUInt8 ascii] at large
      exact absurd (of_decide_eq_true ascii) (Nat.not_lt.mpr large)
  · rintro rfl
    rw [utf8EncodeChar_of_isAscii ascii]
    exact List.mem_singleton_self _

theorem ne_of_mem_utf8EncodeChar {a c : Char} (ascii : isAscii a = true) (other : c ≠ a)
    {b : UInt8} (mem : b ∈ String.utf8EncodeChar c) : b ≠ a.toUInt8 := by
  rintro rfl
  exact other ((mem_utf8EncodeChar_iff ascii).mp mem).symm

/-- No byte below 128 is among the further bytes of a character. -/
theorem not_mem_tail_utf8EncodeChar {a : Char} (ascii : isAscii a = true) (c : Char) :
    a.toUInt8 ∉ (String.utf8EncodeChar c).tail := by
  intro mem
  obtain rfl := (mem_utf8EncodeChar_iff ascii).mp (List.mem_of_mem_tail mem)
  rw [utf8EncodeChar_of_isAscii ascii] at mem
  cases mem

theorem utf8Size_of_isAscii {c : Char} (ascii : isAscii c = true) : c.utf8Size = 1 := by
  rw [← String.length_utf8EncodeChar, utf8EncodeChar_of_isAscii ascii]
  rfl

theorem byteLength_append_of_isAscii {c : Char} (ascii : isAscii c = true) (before : List Char) :
    byteLength (before ++ [c]) = byteLength before + 1 := by
  rw [byteLength_append, byteLength_cons, utf8Size_of_isAscii ascii, byteLength_nil]

theorem getElem?_utf8_of_isAscii {c : Char} (ascii : isAscii c = true) (before after : List Char) :
    (utf8 (before ++ c :: after))[byteLength before]? = some c.toUInt8 := by
  rw [utf8_append, utf8_cons, utf8EncodeChar_of_isAscii ascii, ← length_utf8,
    List.getElem?_append_right (Nat.le_refl _), Nat.sub_self]
  rfl

/-- A character at an offset has a byte there. -/
theorem exists_getElem?_utf8 (before : List Char) (c : Char) (after : List Char) :
    ∃ b ∈ String.utf8EncodeChar c, (utf8 (before ++ c :: after))[byteLength before]? = some b := by
  obtain ⟨b, more, shape⟩ := List.exists_cons_of_ne_nil (String.utf8EncodeChar_ne_nil (c := c))
  refine ⟨b, shape ▸ List.mem_cons_self .., ?_⟩
  rw [utf8_append, utf8_cons, shape, ← length_utf8, List.getElem?_append_right (Nat.le_refl _),
    Nat.sub_self]
  rfl

/-- In front of the offset after a character is the last byte of it. -/
theorem exists_getElem?_utf8_pred (before : List Char) (c : Char) (after : List Char) :
    ∃ b ∈ String.utf8EncodeChar c,
      (utf8 (before ++ [c] ++ after))[byteLength (before ++ [c]) - 1]? = some b := by
  obtain empty | ⟨first, b, shape⟩ := List.eq_nil_or_concat (String.utf8EncodeChar c)
  · exact absurd empty String.utf8EncodeChar_ne_nil
  · rw [List.concat_eq_append] at shape
    have width := congrArg List.length shape
    rw [String.length_utf8EncodeChar, List.length_append, List.length_singleton] at width
    have bytes : utf8 (before ++ [c] ++ after) = utf8 before ++ first ++ b :: utf8 after := by
      simp [shape]
    have offset : byteLength (before ++ [c]) - 1 = (utf8 before ++ first).length := by
      simp [width]
    refine ⟨b, by simp [shape], ?_⟩
    rw [bytes, offset, List.getElem?_append_right (Nat.le_refl _), Nat.sub_self]
    rfl

/-- A byte below 128 stands between two characters. -/
theorem exists_append_of_getElem?_utf8 {text : List Char} {offset : Nat} {b : UInt8}
    (small : b.toNat < 128) (found : (utf8 text)[offset]? = some b) :
    ∃ before c after, text = before ++ c :: after ∧ byteLength before = offset := by
  induction text generalizing offset with
  | nil => cases found
  | cons c text ih =>
    by_cases first : offset = 0
    · exact ⟨[], c, text, rfl, first.symm⟩
    · rw [utf8_cons] at found
      by_cases own : offset < c.utf8Size
      · rw [List.getElem?_append_left (by rwa [String.length_utf8EncodeChar])] at found
        have mem := List.mem_of_getElem? found
        cases ascii : isAscii c with
        | true =>
          have one := utf8Size_of_isAscii ascii
          omega
        | false => exact absurd small (Nat.not_lt.mpr (le_toNat_of_mem_utf8EncodeChar ascii mem))
      · rw [List.getElem?_append_right (by rw [String.length_utf8EncodeChar]; omega)] at found
        obtain ⟨before, d, after, rfl, size⟩ := ih found
        refine ⟨c :: before, d, after, rfl, ?_⟩
        rw [byteLength_cons, size, String.length_utf8EncodeChar]
        omega

/-- What is the same from each byte of a part on as from the next one is the same from both ends. -/
theorem eq_of_passed_bytes {α : Type} (f : Nat → α) (front part back : List UInt8)
    (step : ∀ {offset : Nat}, ∀ b ∈ part, (front ++ part ++ back)[offset]? = some b →
      f offset = f (offset + 1)) : f front.length = f (front ++ part).length := by
  induction part generalizing front with
  | nil => rw [List.append_nil]
  | cons b part ih =>
    have here : (front ++ b :: part ++ back)[front.length]? = some b := by simp
    have shape : front ++ [b] ++ part = front ++ b :: part := List.append_assoc ..
    have later := ih (front ++ [b]) fun d mem found =>
      step d (List.mem_cons_of_mem _ mem) (shape ▸ found)
    rw [shape, List.length_append, List.length_singleton] at later
    exact (step b (List.mem_cons_self ..) here).trans later

theorem eq_of_passed {α : Type} (f : Nat → α) {c : Char} (before after : List Char)
    (step : ∀ {offset : Nat}, ∀ b ∈ String.utf8EncodeChar c,
      (utf8 (before ++ c :: after))[offset]? = some b → f offset = f (offset + 1)) :
    f (byteLength before) = f (byteLength (before ++ [c])) := by
  have bytes : utf8 (before ++ c :: after) =
      utf8 before ++ String.utf8EncodeChar c ++ utf8 after := by simp
  have run := eq_of_passed_bytes f (utf8 before) (String.utf8EncodeChar c) (utf8 after)
    fun b mem found => step b mem (bytes ▸ found)
  simpa using run

theorem isPrefixOf_utf8 {word : List Char} (ascii : ∀ c ∈ word, isAscii c = true)
    (text : List Char) :
    (word.map Char.toUInt8).isPrefixOf (utf8 text) = word.isPrefixOf text := by
  induction word generalizing text with
  | nil => rw [List.map_nil, List.isPrefixOf_nil_left, List.isPrefixOf_nil_left]
  | cons w word ih =>
    obtain ⟨own, others⟩ := List.forall_mem_cons.mp ascii
    cases text with
    | nil => rfl
    | cons c text =>
      rw [List.map_cons, utf8_cons]
      by_cases same : w = c
      · subst same
        rw [utf8EncodeChar_of_isAscii own, List.singleton_append, List.isPrefixOf, List.isPrefixOf,
          ih others, beq_self_eq_true, beq_self_eq_true]
      · obtain ⟨b, more, shape⟩ :=
          List.exists_cons_of_ne_nil (String.utf8EncodeChar_ne_nil (c := c))
        have differ : w.toUInt8 ≠ b := by
          rintro rfl
          exact same ((mem_utf8EncodeChar_iff own).mp (shape ▸ List.mem_cons_self ..))
        rw [shape, List.cons_append, List.isPrefixOf, List.isPrefixOf, beq_false_of_ne differ,
          beq_false_of_ne same, Bool.false_and, Bool.false_and]

/-! ### Boundaries -/

/-- Whether an offset is in a text and between two of its characters, or at one of its ends. -/
structure OnBoundary (text : List Char) (offset : Nat) : Prop where
  within : offset ≤ byteLength text
  between : String.Pos.Raw.IsValid (String.ofList text) ⟨offset⟩

theorem utf8ByteSize_ofList (text : List Char) :
    (String.ofList text).utf8ByteSize = byteLength text := by
  rw [← String.size_toByteArray, String.toByteArray_ofList, List.utf8Encode, ← length_utf8]
  exact List.size_toByteArray

theorem onBoundary_iff {text : List Char} {offset : Nat} :
    OnBoundary text offset ↔
      ∃ before after, text = before ++ after ∧ byteLength before = offset := by
  constructor
  · rintro ⟨-, between⟩
    obtain ⟨i, size⟩ := String.Pos.Raw.isValid_ofList.mp between
    rw [utf8ByteSize_ofList] at size
    exact ⟨text.take i, text.drop i, (List.take_append_drop i text).symm, size.symm⟩
  · rintro ⟨before, after, rfl, rfl⟩
    refine ⟨by rw [byteLength_append]; omega, String.Pos.Raw.isValid_ofList.mpr ⟨before.length, ?_⟩⟩
    rw [List.take_left, utf8ByteSize_ofList]

theorem onBoundary_append (before after : List Char) :
    OnBoundary (before ++ after) (byteLength before) :=
  onBoundary_iff.mpr ⟨before, after, rfl, rfl⟩

theorem slice_suffix (before after : List Char) :
    slice (before ++ after) (byteLength before) (byteLength (before ++ after)) = .ok after := by
  have whole := slice_append before after []
  rwa [List.append_nil] at whole

/-- Of two beginnings of a text, the shorter one is a beginning of the other. -/
theorem prefix_of_byteLength_le {first second text : List Char} (start : first <+: text)
    (other : second <+: text) (le : byteLength first ≤ byteLength second) : first <+: second := by
  rcases List.prefix_or_prefix_of_prefix start other with shorter | ⟨more, rfl⟩
  · exact shorter
  · cases more with
    | nil => exact ⟨[], by simp⟩
    | cons c more =>
      have := c.utf8Size_pos
      rw [byteLength_append, byteLength_cons] at le
      omega

/-- There is a part of a text between any two of its boundaries, and nowhere else. -/
theorem exists_slice_iff {text : List Char} {start stop : Nat} :
    (∃ part, slice text start stop = .ok part) ↔
      start ≤ stop ∧ OnBoundary text start ∧ OnBoundary text stop := by
  constructor
  · rintro ⟨part, found⟩
    obtain ⟨before, after, rfl, rfl, rfl⟩ := slice_eq_ok found
    refine ⟨by rw [byteLength_append]; omega, ?_, onBoundary_append _ _⟩
    rw [List.append_assoc]
    exact onBoundary_append _ _
  · rintro ⟨ordered, first, last⟩
    obtain ⟨front, after, whole, rfl⟩ := onBoundary_iff.mp last
    obtain ⟨before, rest, rfl, rfl⟩ := onBoundary_iff.mp first
    obtain ⟨part, rfl⟩ := prefix_of_byteLength_le (whole ▸ List.prefix_append before rest)
      (whole ▸ List.prefix_append front after) ordered
    exact ⟨part, whole ▸ slice_append before part after⟩

end CiTranslate.Text

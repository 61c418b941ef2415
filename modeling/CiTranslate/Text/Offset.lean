import CiTranslate.Text.Bytes

/-!
Places in a text by their offsets, counted in the bytes of its UTF-8 form.

A part of a text is taken from between two characters. Where an offset lies inside of a character or
after the text, there is no such part.
-/

namespace CiTranslate.Text

/-- The bytes of a text. -/
def utf8 (text : List Char) : List UInt8 := text.flatMap String.utf8EncodeChar

/-- The parts of a text before and after an offset. -/
def splitAt? : Nat → List Char → Option (List Char × List Char)
  | 0, text => some ([], text)
  | _ + 1, [] => none
  | offset + 1, c :: text =>
    if offset + 1 < c.utf8Size then none
    else (splitAt? (offset + 1 - c.utf8Size) text).map fun (before, after) => (c :: before, after)

theorem splitAt?_append (before after : List Char) :
    splitAt? (byteLength before) (before ++ after) = some (before, after) := by
  induction before with
  | nil => rw [byteLength_nil, splitAt?, List.nil_append]
  | cons c before ih =>
    have width := c.utf8Size_pos
    obtain ⟨offset, size⟩ : ∃ offset, byteLength (c :: before) = offset + 1 :=
      ⟨byteLength (c :: before) - 1, by rw [byteLength_cons]; omega⟩
    have fits : ¬offset + 1 < c.utf8Size := by rw [← size, byteLength_cons]; omega
    have left : offset + 1 - c.utf8Size = byteLength before := by
      rw [← size, byteLength_cons, Nat.add_sub_cancel_left]
    rw [size, List.cons_append, splitAt?, if_neg fits, left, ih, Option.map_some]

theorem splitAt?_eq_some {offset : Nat} {text before after : List Char}
    (found : splitAt? offset text = some (before, after)) :
    text = before ++ after ∧ byteLength before = offset := by
  induction text generalizing offset before with
  | nil =>
    cases offset with
    | zero => cases found; exact ⟨rfl, rfl⟩
    | succ offset => cases found
  | cons c text ih =>
    cases offset with
    | zero => cases found; exact ⟨rfl, rfl⟩
    | succ offset =>
      rw [splitAt?] at found
      split at found
      · cases found
      · next fits =>
        obtain ⟨⟨first, second⟩, rest, same⟩ := Option.map_eq_some_iff.mp found
        cases same
        obtain ⟨rfl, size⟩ := ih rest
        refine ⟨rfl, ?_⟩
        rw [byteLength_cons, size]
        omega

/-- Offsets that are not the ends of a part. -/
structure SliceFault where
  start : Nat
  stop : Nat
  deriving DecidableEq, Repr

/-- The part of a text between two offsets. -/
def slice (text : List Char) (start stop : Nat) : Except SliceFault (List Char) :=
  match (splitAt? stop text).bind fun parts => splitAt? start parts.1 with
  | some (_, part) => .ok part
  | none => .error ⟨start, stop⟩

theorem ok_bind {α β : Type} (part : α) (f : α → Except SliceFault β) :
    Except.ok part >>= f = f part := rfl

theorem exists_of_bind_eq_ok {α β : Type} {parts : Except SliceFault α}
    {f : α → Except SliceFault β} {result : β} (found : parts >>= f = .ok result) :
    ∃ part, parts = .ok part ∧ f part = .ok result := by
  cases parts with
  | ok part => exact ⟨part, rfl, found⟩
  | error fault => cases found

theorem slice_append (before part after : List Char) :
    slice (before ++ part ++ after) (byteLength before) (byteLength (before ++ part)) =
      .ok part := by
  rw [slice, splitAt?_append (before ++ part), Option.bind_some, splitAt?_append]

theorem slice_eq_ok {text part : List Char} {start stop : Nat}
    (found : slice text start stop = .ok part) :
    ∃ before after, text = before ++ part ++ after ∧ byteLength before = start ∧
      byteLength (before ++ part) = stop := by
  rw [slice] at found
  split at found
  · next before own split =>
    cases found
    obtain ⟨⟨front, after⟩, outer, inner⟩ := Option.bind_eq_some_iff.mp split
    obtain ⟨rfl, size⟩ := splitAt?_eq_some outer
    obtain ⟨rfl, first⟩ := splitAt?_eq_some inner
    exact ⟨before, after, rfl, first, size⟩
  · cases found

/-- The offset of the first occurrence of a word. -/
def offset? (word : List Char) : List Char → Option Nat
  | [] => if word.isEmpty then some 0 else none
  | c :: text =>
    if word.isPrefixOf (c :: text) then some 0 else (offset? word text).map (· + c.utf8Size)

theorem pos_of_offset? {word text : List Char} {offset : Nat}
    (absent : word.isPrefixOf text = false) (found : offset? word text = some offset) :
    0 < offset := by
  cases text with
  | nil =>
    cases word with
    | nil => cases absent
    | cons w word => cases found
  | cons c text =>
    rw [offset?, if_neg (by simp [absent])] at found
    obtain ⟨later, -, rfl⟩ := Option.map_eq_some_iff.mp found
    exact Nat.add_pos_right later c.utf8Size_pos

end CiTranslate.Text

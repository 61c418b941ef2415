import CiTranslate.Proofs.Groovy.Ends

/-!
Passages as parts of a script.

Whatever a text starts with, the passage that is measured there is a part of the text that is not
empty (`exists_append_of_passage`), also when a literal or a comment is not closed.
-/

namespace CiTranslate.Groovy

/-! ### Literals -/

theorem lineLength_le (quote : Char) (text : List Char) :
    lineLength quote text ≤ text.length := by
  induction text using lineLength.induct quote with
  | case1 => exact Nat.le_refl 0
  | case2 c text ih =>
    rw [lineLength]
    exact Nat.add_le_add_right ih 2
  | case3 c text single newline =>
    rw [lineLength, if_pos newline]
    · exact Nat.zero_le _
    · exact single
  | case4 c text single inside own =>
    rw [lineLength, if_neg inside, if_pos own]
    · exact Nat.le_add_left 1 text.length
    · exact single
  | case5 c text single inside other ih =>
    rw [lineLength, if_neg inside, if_neg other]
    · exact Nat.add_le_add_right ih 1
    · exact single

theorem blockLength_le (quote : Char) (text : List Char) :
    blockLength quote text ≤ text.length := by
  induction text using blockLength.induct quote with
  | case1 => exact Nat.le_refl 0
  | case2 c text ih =>
    rw [blockLength]
    exact Nat.add_le_add_right ih 2
  | case3 c text single triple =>
    rw [blockLength, if_pos triple]
    · exact (startsTriple_iff.mp triple).length_le
    · exact single
  | case4 c text single other ih =>
    rw [blockLength, if_neg other]
    · exact Nat.add_le_add_right ih 1
    · exact single

theorem exists_append_of_length_le {text : List Char} {length : Nat}
    (bounds : 0 < length ∧ length ≤ text.length) :
    ∃ part rest, text = part ++ rest ∧ part ≠ [] ∧ length = part.length := by
  have size := List.length_take_of_le bounds.2
  exact ⟨text.take length, text.drop length, (List.take_append_drop ..).symm,
    List.ne_nil_of_length_pos (size.symm ▸ bounds.1), size.symm⟩

/-- A literal has its first quote at least. -/
theorem literalLength?_bounds {text : List Char} {length : Nat}
    (found : literalLength? text = some length) : 0 < length ∧ length ≤ text.length := by
  cases text with
  | nil => cases found
  | cons c text =>
    rw [literalLength?] at found
    split at found
    · cases found
    · split at found
      · next triple =>
        cases found
        have quotes := (startsTriple_iff.mp triple).length_le
        have rest := blockLength_le c (text.drop 2)
        rw [List.length_drop] at rest
        rw [List.length_replicate, List.length_cons] at quotes
        rw [List.length_cons]
        omega
      · cases found
        exact ⟨Nat.succ_pos _, Nat.add_le_add_right (lineLength_le c text) 1⟩

theorem isQuote_of_literalLength? {c : Char} {text : List Char}
    (none : literalLength? (c :: text) = none) : isQuote c = false := by
  cases mark : isQuote c with
  | false => rfl
  | true =>
    rw [literalLength?, mark, Bool.not_true, if_neg Bool.false_ne_true] at none
    split at none
    · cases none
    · cases none

/-! ### Noise -/

theorem commentLength_le (text : List Char) : commentLength text ≤ text.length := by
  induction text using commentLength.induct with
  | case1 => exact Nat.le_refl 0
  | case2 rest => exact Nat.le_add_left 2 rest.length
  | case3 c text other ih =>
    rw [commentLength]
    · exact Nat.add_le_add_right ih 1
    · exact other

theorem le_length_of_callLength? {skip depth length : Nat} {text : List Char}
    (found : callLength? skip depth text = some length) : length ≤ text.length := by
  induction text generalizing skip depth length with
  | nil =>
    rw [callLength?_nil] at found
    cases found
  | cons c text ih =>
    have later {skip depth : Nat}
        (found : (callLength? skip depth text).map (· + 1) = some length) :
        length ≤ text.length + 1 := by
      obtain ⟨rest, own, rfl⟩ := Option.map_eq_some_iff.mp found
      exact Nat.add_le_add_right (ih own) 1
    cases skip with
    | succ skip => exact later found
    | zero =>
      rw [callLength?] at found
      split at found
      · exact later found
      · split at found
        · exact later found
        · split at found
          · split at found
            · cases found
              exact Nat.le_add_left 1 text.length
            · exact later found
          · exact later found

/-- A debug call has its opening parenthesis at least. -/
theorem debugLength?_bounds {previous : Option Char} {text : List Char} {length : Nat}
    (found : debugLength? previous text = some length) : 0 < length ∧ length ≤ text.length := by
  rw [debugLength?] at found
  split at found
  · cases found
  · obtain ⟨name, -, found⟩ := Option.bind_eq_some_iff.mp found
    dsimp only at found
    split at found
    · next arguments trimmed =>
      obtain ⟨rest, call, rfl⟩ := Option.map_eq_some_iff.mp found
      have inner := le_length_of_callLength? call
      have called : '(' :: arguments <:+ text.drop name.length :=
        trimmed ▸ List.dropWhile_suffix Text.isBlank
      have opening := (called.trans (List.drop_suffix ..)).length_le
      rw [List.length_cons] at opening
      omega
    · cases found

theorem noiseLength?_bounds {previous : Option Char} {text : List Char} {length : Nat}
    (found : noiseLength? previous text = some length) : 0 < length ∧ length ≤ text.length := by
  unfold noiseLength? at found
  split at found
  · next rest =>
    cases found
    exact ⟨Nat.succ_pos _, Nat.add_le_add_right (commentLength_le rest) 2⟩
  · next rest =>
    split at found
    · cases found
    · cases found
      exact ⟨Nat.succ_pos _, Nat.add_le_add_right (List.takeWhile_prefix _).length_le 2⟩
  · exact debugLength?_bounds found

/-! ### Passages -/

/-- A passage is a part at the start of the text. -/
theorem exists_append_of_passage (previous : Option Char) {text : List Char} (more : text ≠ []) :
    ∃ kept part rest, text = part ++ rest ∧ part ≠ [] ∧
      passage previous text = (kept, part.length) := by
  have bounds : 0 < (passage previous text).2 ∧ (passage previous text).2 ≤ text.length := by
    rw [passage]
    cases literal : literalLength? text with
    | some length => exact literalLength?_bounds literal
    | none =>
      cases noise : noiseLength? previous text with
      | some length => exact noiseLength?_bounds noise
      | none => exact ⟨Nat.one_pos, List.length_pos_iff.mpr more⟩
  obtain ⟨part, rest, whole, nonempty, size⟩ := exists_append_of_length_le bounds
  exact ⟨_, part, rest, whole, nonempty, Prod.ext rfl size⟩

end CiTranslate.Groovy

import CiTranslate.Json.Writer
import CiTranslate.Proofs.Decimal
import CiTranslate.Proofs.Payload

/-!
JSON texts hold no fence.

Backticks stand in texts only, between quotes, and no line ends there: a line end is escaped. A
quote therefore follows every backtick on its line (`sealed_pretty`), whatever names and values
there are.
-/

namespace CiTranslate.Json

open Payload

/-! ### Texts -/

theorem not_mem_escape_newline (c : Char) : '\n' ∉ escape c := by
  have digits : ∀ n < 0x20, '\n' ∉ hexByte n := by decide
  unfold escape
  split
  · decide
  · decide
  · decide
  · decide
  · decide
  · decide
  · decide
  · next other _ _ =>
    split
    · next control =>
      intro mem
      rcases List.mem_append.mp mem with mem | mem
      · revert mem
        decide
      · exact digits _ control mem
    · intro mem
      exact other (List.mem_singleton.mp mem).symm

/-- What stands on one line before a quote is sealed by it. -/
theorem sealed_append_quote {line : List Char} (noEnd : '\n' ∉ line) :
    Sealed (line ++ [quote]) := by
  induction line with
  | nil => exact sealed_of_not_mem (by decide)
  | cons c line ih =>
    have later : '\n' ∉ line := fun mem => noEnd (List.mem_cons_of_mem _ mem)
    exact ⟨fun _ => ⟨line, [], rfl, later⟩, ih later⟩

theorem sealed_writeText (text : String) : Sealed (writeText text) := by
  refine ⟨fun tick => absurd tick (by decide), sealed_append_quote fun mem => ?_⟩
  obtain ⟨c, -, mem⟩ := List.mem_flatMap.mp mem
  exact not_mem_escape_newline c mem

/-! ### Words and numbers -/

theorem sealed_word (word : String) (plain : backtick ∉ word.toList) : Sealed (writeWord word) :=
  sealed_of_not_mem plain

theorem ne_backtick_of_isDigit {c : Char} (digit : c.isDigit = true) : c ≠ backtick := by
  rintro rfl
  revert digit
  decide

theorem sealed_int (value : Int) : Sealed (writeWord (toString value)) := by
  have plain : ∀ c ∈ (toString value).toList, c ≠ backtick :=
    Decimal.forall_mem_toString_int (fun _ => ne_backtick_of_isDigit) (by decide) value
  exact sealed_word _ fun mem => plain backtick mem rfl

theorem sealed_float (value : Float) : Sealed (writeWord (doubles.write value)) := by
  have marks : ∀ c ∈ ['.', 'e', '+', '-'], c ≠ backtick := by simp [backtick]
  have words : ∀ c ∈ doubles.infinity.toList ++ doubles.notANumber.toList, c ≠ backtick := by
    simp [doubles, backtick]
  have plain : ∀ c ∈ (doubles.write value).toList, c ≠ backtick :=
    Decimal.forall_mem_write doubles (fun _ => ne_backtick_of_isDigit) marks words value
  exact sealed_word _ fun mem => plain backtick mem rfl

/-! ### Documents -/

theorem sealed_newLine (level : Nat) : Sealed (newLine level) := by
  refine ⟨fun tick => absurd tick (by decide), sealed_of_not_mem fun mem => ?_⟩
  have blank := (List.mem_replicate.mp mem).2
  revert blank
  decide

/-- A character other than a backtick needs no quote. -/
theorem sealed_cons {c : Char} (other : c ≠ backtick) {text : List Char} (isSealed : Sealed text) :
    Sealed (c :: text) :=
  ⟨fun tick => absurd tick other, isSealed⟩

theorem sealed_bracketed {opening closing : Char} (first : opening ≠ backtick)
    (last : closing ≠ backtick) {text : List Char} (isSealed : Sealed text) (level : Nat) :
    Sealed (opening :: (text ++ newLine level ++ [closing])) :=
  sealed_cons first ((isSealed.append (sealed_newLine level)).append (sealed_cons last trivial))

mutual

/-- No document opens a fence, at any level. -/
theorem sealed_pretty (level : Nat) : (data : Data) → Sealed (pretty level data)
  | .null => sealed_word "null" (by decide)
  | .bool true => sealed_word "true" (by decide)
  | .bool false => sealed_word "false" (by decide)
  | .int value => sealed_int value
  | .float value => sealed_float value
  | .text value => sealed_writeText value
  | .list [] => sealed_cons (by decide) (sealed_cons (by decide) trivial)
  | .list (item :: items) =>
    sealed_bracketed (by decide) (by decide) (sealed_prettyItems (level + 1) (item :: items)) level
  | .record [] => sealed_cons (by decide) (sealed_cons (by decide) trivial)
  | .record (field :: fields) =>
    sealed_bracketed (by decide) (by decide) (sealed_prettyFields (level + 1) (field :: fields))
      level

theorem sealed_prettyItems (level : Nat) :
    (items : List Data) → Sealed (prettyItems level items)
  | [] => trivial
  | [item] => (sealed_newLine level).append (sealed_pretty level item)
  | item :: next :: items =>
    have others := sealed_prettyItems level (next :: items)
    (sealed_newLine level).append
      ((sealed_pretty level item).append (sealed_cons (by decide) others))

theorem sealed_prettyFields (level : Nat) :
    (fields : List (String × Data)) → Sealed (prettyFields level fields)
  | [] => trivial
  | [(key, value)] =>
    (sealed_newLine level).append ((sealed_writeText key).append
      (sealed_cons (by decide) (sealed_cons (by decide) (sealed_pretty level value))))
  | (key, value) :: next :: fields =>
    have others := sealed_prettyFields level (next :: fields)
    (sealed_newLine level).append ((sealed_writeText key).append
      (sealed_cons (by decide) (sealed_cons (by decide)
        ((sealed_pretty level value).append (sealed_cons (by decide) others)))))

end

/-- A record is the payload of its text, whatever its names and values hold. -/
theorem ofText_writePretty (field : String × Data) (fields : List (String × Data)) :
    ofText .codepipeline (writePretty (.record (field :: fields))) =
      .ok (.json (writePretty (.record (field :: fields)))) :=
  ofText_json (sealed_pretty 0 (.record (field :: fields)))

end CiTranslate.Json

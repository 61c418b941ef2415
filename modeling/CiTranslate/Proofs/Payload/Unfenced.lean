import CiTranslate.Payload.Fence
import CiTranslate.Proofs.Data
import CiTranslate.Proofs.Identifier
import CiTranslate.Proofs.InputValue
import CiTranslate.Proofs.Text.Search

/-!
Texts without fences.

What is made from such a text has no fence either: the key that is handed out for it, and the value
that it is written as when it is the compact form of a list or a record
(`unfenced_of_mem_allocateAll`, `unfenced_inputValue`). Identifiers have no backticks at all.
-/

namespace CiTranslate

open Payload (backtick fence)

/-! ### Texts without fences -/

/-- A text in which no three backticks stand next to each other. -/
def Payload.Unfenced (text : String) : Prop := ¬fence <:+: text.toList

open Payload (Unfenced)

instance : DecidablePred Unfenced :=
  fun _ => decidable_of_iff _ Text.contains_eq_false_iff

theorem Payload.unfenced_iff {text : String} :
    Unfenced text ↔ Text.contains fence text.toList = false :=
  Text.contains_eq_false_iff.symm

namespace Payload.Unfenced

variable {text : String}

theorem of_infix {part : List Char} (unfenced : Unfenced text) (inside : part <:+: text.toList) :
    Unfenced (String.ofList part) := by
  rw [Unfenced, String.toList_ofList]
  exact fun found => unfenced (found.trans inside)

/-- A text without a backtick has no fence. -/
theorem of_not_mem (absent : backtick ∉ text.toList) : Unfenced text :=
  fun found => absent (found.subset (List.mem_cons_self ..))

end Payload.Unfenced

/-! ### Names -/

theorem unfenced_identifier (hyphens : Bool) (name : String) :
    Unfenced (identifier hyphens name) := by
  refine .of_not_mem fun mem => ?_
  have word := (isIdentifier_identifier hyphens name).chars backtick mem
  cases hyphens <;> revert word <;> decide

theorem unfenced_numbered {base : String} (unfenced : Unfenced base) (n : Nat) :
    Unfenced (Keys.numbered base n) := by
  have number : Text.contains fence (toString n).toList = false := by
    refine Payload.unfenced_iff.mp (.of_not_mem fun mem => ?_)
    rw [Nat.toString_eq_ofList_toDigits, String.toList_ofList] at mem
    have digit := Nat.isDigit_of_mem_toDigits (by decide) (by decide) mem
    revert digit
    decide
  rw [Payload.unfenced_iff] at unfenced ⊢
  rw [Keys.toList_numbered, Text.contains_append_cons (by decide) (by decide), unfenced, number]
  rfl

theorem unfenced_of_mem_allocateAll {bases : List String}
    (unfenced : ∀ base ∈ bases, Unfenced base) {keys : Keys} {key : String}
    (handed : key ∈ (Keys.allocateAll bases keys).1) : Unfenced key := by
  obtain ⟨base, mem, rfl | ⟨n, rfl⟩⟩ := Keys.exists_base_of_mem_allocateAll handed
  · exact unfenced key mem
  · exact unfenced_numbered (unfenced base mem) n

/-! ### Nested values -/

namespace Json

theorem spells_escape : Text.Spells fence escape where
  kept c mem := by
    obtain rfl : c = backtick := by simpa [fence] using mem
    rfl
  other c foreign := by
    have digits : ∀ n < 0x20, ∀ d ∈ hexByte n, d ∉ fence := by decide
    unfold escape
    split
    case h_8 =>
      split
      · next control =>
        exact ⟨List.cons_ne_nil _ _, List.forall_mem_append.mpr ⟨by decide, digits _ control⟩⟩
      · exact ⟨List.cons_ne_nil _ _, fun d mem => List.mem_singleton.mp mem ▸ foreign⟩
    all_goals exact ⟨List.cons_ne_nil _ _, by decide⟩

theorem compact_infix_of_item {items : List Data} {item : Data} (mem : item ∈ items) :
    compact item <:+: compact (.list items) := by
  suffices run : ∀ first, compact item <:+: itemsFrom first items by
    rw [compact, compactItems_eq]
    exact (run true).trans ⟨['['], [']'], rfl⟩
  induction items with
  | nil => cases mem
  | cons head items ih =>
    intro first
    rw [itemsFrom]
    rcases List.mem_cons.mp mem with rfl | later
    · exact ⟨separator first, itemsFrom false items, List.append_assoc ..⟩
    · exact (ih later false).trans ⟨separator first ++ compact head, [], by simp⟩

theorem compact_infix_of_field {fields : List (String × Data)} {field : String × Data}
    (mem : field ∈ fields) :
    writeText field.1 ++ ':' :: compact field.2 <:+: compact (.record fields) := by
  suffices run : ∀ first,
      writeText field.1 ++ ':' :: compact field.2 <:+: fieldsFrom first fields by
    rw [compact, compactFields_eq]
    exact (run true).trans ⟨['\x7b'], ['\x7d'], rfl⟩
  induction fields with
  | nil => cases mem
  | cons head fields ih =>
    intro first
    rw [fieldsFrom]
    rcases List.mem_cons.mp mem with rfl | later
    · exact ⟨separator first, fieldsFrom false fields, by simp⟩
    · exact (ih later false).trans
        ⟨separator first ++ (writeText head.1 ++ ':' :: compact head.2), [], by simp⟩

/-- All texts of a value are spelled out in its compact form. -/
theorem writeText_infix_compact (data : Data) :
    data.AllTexts fun text => writeText text <:+: compact data := by
  induction data using Data.induct with
  | null | bool | int | float => exact fun _ mem => absurd mem List.not_mem_nil
  | text value => exact .text (List.infix_refl _)
  | list items ih =>
    exact .list fun item mem text inside =>
      (ih item mem text inside).trans (compact_infix_of_item mem)
  | record fields ih =>
    refine .record fun field mem => ⟨?_, fun text inside => ?_⟩
    · exact (List.infix_append [] _ _).trans (compact_infix_of_field mem)
    · have value : compact field.2 <:+: writeText field.1 ++ ':' :: compact field.2 :=
        ⟨writeText field.1 ++ [':'], [], by simp⟩
      exact (ih field mem text inside).trans (value.trans (compact_infix_of_field mem))

/-- A fence in a value is one in its compact form. -/
theorem unfenced_of_write {data : Data} (unfenced : Unfenced (write data)) :
    data.AllTexts Unfenced := by
  intro text mem
  have spelled : text.toList.flatMap escape <:+: (write data).toList := by
    rw [write, String.toList_ofList]
    exact List.IsInfix.trans ⟨[quote], [quote], rfl⟩ (writeText_infix_compact data text mem)
  rw [Payload.unfenced_iff, ← spells_escape.contains_flatMap, Text.contains_eq_false_iff]
  exact fun found => unfenced (found.trans spelled)

end Json

theorem unfenced_inputValue {raw : String} (unfenced : Unfenced raw) :
    (inputValue raw).AllTexts Unfenced := by
  unfold inputValue
  split
  · split
    · split
      · next same => exact Json.unfenced_of_write (same ▸ unfenced)
      · exact .text unfenced
    · exact .text unfenced
  · exact .text unfenced

end CiTranslate

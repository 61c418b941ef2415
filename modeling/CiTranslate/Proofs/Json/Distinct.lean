import CiTranslate.Json.Reader
import CiTranslate.Proofs.Fields

/-!
Names in values that were read from JSON texts.

A record is read by putting one field after the other, so no name occurs twice in it. As this holds
at every level (`keysDistinct_of_read`), what is read is determined by the document that it becomes.
-/

namespace CiTranslate

/-- The names of every record in a value are distinct. -/
inductive Data.KeysDistinct : Data → Prop where
  | null : KeysDistinct .null
  | bool (value : Bool) : KeysDistinct (.bool value)
  | int (value : Int) : KeysDistinct (.int value)
  | float (value : Float) : KeysDistinct (.float value)
  | text (value : String) : KeysDistinct (.text value)
  | list {items : List Data} : (∀ item ∈ items, KeysDistinct item) → KeysDistinct (.list items)
  | record {fields : List (String × Data)} : (Fields.names fields).Nodup →
      (∀ field ∈ fields, KeysDistinct field.2) → KeysDistinct (.record fields)

namespace Json

open Data (KeysDistinct)

/-! ### Scalars -/

theorem keysDistinct_integer (negative : Bool) (n : Nat) : (integer negative n).KeysDistinct := by
  unfold integer
  split
  · exact .int _
  · split
    · exact .int _
    · exact .float _

theorem keysDistinct_of_asData {result : Except Fault (Float × List Char)} {data : Data}
    {rest : List Char} (success : asData result = .ok (data, rest)) : data.KeysDistinct := by
  cases result with
  | error fault => cases success
  | ok value =>
    cases success
    exact .float _

theorem keysDistinct_of_readNumber {negative : Bool} {text : List Char} {data : Data}
    {rest : List Char} (success : readNumber negative text = .ok (data, rest)) :
    data.KeysDistinct := by
  unfold readNumber at success
  split at success
  · cases success
  · split at success
    · cases success
    · dsimp only at success
      split at success
      · cases success
      · split at success
        · exact keysDistinct_of_asData success
        · exact keysDistinct_of_asData success
        · exact keysDistinct_of_asData success
        · split at success
          · cases success
            exact keysDistinct_integer _ _
          · exact keysDistinct_of_asData success

theorem keysDistinct_of_map {α : Type} {f : α → Data × List Char} {result : Except Fault α}
    {data : Data} {rest : List Char} (all : ∀ value, (f value).1.KeysDistinct)
    (success : result.map f = .ok (data, rest)) : data.KeysDistinct := by
  cases result with
  | error fault => cases success
  | ok value =>
    have same : f value = (data, rest) := Except.ok.inj success
    have own := all value
    rwa [same] at own

theorem keysDistinct_of_readScalar {text : List Char} {data : Data} {rest : List Char}
    (success : readScalar text = .ok (data, rest)) : data.KeysDistinct := by
  unfold readScalar at success
  split at success
  · cases success
  · split at success
    · exact keysDistinct_of_map (fun _ => .null) success
    · exact keysDistinct_of_map (fun _ => .bool true) success
    · exact keysDistinct_of_map (fun _ => .bool false) success
    · exact keysDistinct_of_readNumber success
    · exact keysDistinct_of_map (fun value => .text value.1) success
    · split at success
      · exact keysDistinct_of_readNumber success
      · cases success

/-! ### Values -/

theorem forall_mem_put {key : String} {value : Data} {fields : List (String × Data)}
    (own : value.KeysDistinct) (all : ∀ field ∈ fields, field.2.KeysDistinct) :
    ∀ field ∈ Fields.put key value fields, field.2.KeysDistinct := by
  intro field mem
  rcases Fields.mem_put mem with rfl | old
  · exact own
  · exact all field old

/-- One step more keeps what fewer steps read: the three readers call each other with fewer steps,
and a list or a record grows by values that were read so. -/
theorem keysDistinct_of_steps (steps : Nat) :
    (∀ {depth text result}, readValueFrom steps depth text = .ok result →
      result.1.KeysDistinct) ∧
    (∀ {depth read text result}, (∀ item ∈ read, item.KeysDistinct) →
      readItemsFrom steps depth read text = .ok result → result.1.KeysDistinct) ∧
    (∀ {depth read text result}, (Fields.names read).Nodup →
      (∀ field ∈ read, field.2.KeysDistinct) →
      readFieldsFrom steps depth read text = .ok result → result.1.KeysDistinct) := by
  induction steps with
  | zero =>
    refine ⟨?_, ?_, ?_⟩
    · intro depth text result success
      cases success
    · intro depth read text result all success
      cases success
    · intro depth read text result distinct all success
      cases success
  | succ steps ih =>
    obtain ⟨values, items, fields⟩ := ih
    refine ⟨?_, ?_, ?_⟩
    · intro depth text result success
      rw [readValueFrom] at success
      split at success
      · split at success
        · cases success
        · exact items (List.forall_mem_nil _) success
      · split at success
        · cases success
        · exact fields (Fields.names_nil ▸ List.nodup_nil) (List.forall_mem_nil _) success
      · exact keysDistinct_of_readScalar success
    · intro depth read text result all success
      rw [readItemsFrom] at success
      split at success
      · cases success
      · cases success
        exact .list fun item mem => all item (List.mem_reverse.mp mem)
      · split at success
        · cases success
        · next value =>
          exact items (List.forall_mem_cons.mpr ⟨values value, all⟩) success
    · intro depth read text result distinct all success
      rw [readFieldsFrom] at success
      split at success
      · cases success
      · cases success
        exact .record distinct all
      · split at success
        · cases success
        · split at success
          · cases success
          · split at success
            · cases success
            · next value =>
              exact fields (Fields.nodup_names_put distinct) (forall_mem_put (values value) all)
                success

/-- **No name occurs twice in what is read**, at any level. -/
theorem keysDistinct_of_read {text : String} {data : Data} (success : read text = .ok data) :
    data.KeysDistinct := by
  unfold read readChars at success
  split at success
  · cases success
  · next value rest found =>
    have distinct := (keysDistinct_of_steps _).1 found
    unfold readEnd at success
    split at success
    · cases success
      exact distinct
    · cases success

end Json

end CiTranslate

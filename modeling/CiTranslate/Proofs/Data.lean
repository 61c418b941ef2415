import CiTranslate.Data

/-!
Documents and the texts in them.

What holds of a value if it holds of all that it contains holds of every value (`Data.induct`). The
texts of a value are those of its parts, and the keys of a record among them, so that what is said
of all texts of a document is shown one part at a time (`Data.AllTexts`).
-/

namespace CiTranslate.Data

/-- What holds of a value if it holds of all that it contains holds of every value. -/
theorem induct {motive : Data → Prop} (null : motive .null)
    (bool : ∀ value, motive (.bool value)) (int : ∀ value, motive (.int value))
    (float : ∀ value, motive (.float value)) (text : ∀ value, motive (.text value))
    (list : ∀ items, (∀ item ∈ items, motive item) → motive (.list items))
    (record : ∀ fields : List (String × Data), (∀ field ∈ fields, motive field.2) →
      motive (.record fields)) (data : Data) : motive data := by
  cases data with
  | null => exact null
  | bool value => exact bool value
  | int value => exact int value
  | float value => exact float value
  | text value => exact text value
  | list items =>
    refine list items fun item mem => ?_
    have smaller : sizeOf item < sizeOf (Data.list items) :=
      Nat.lt_of_lt_of_le (List.sizeOf_lt_of_mem mem) (by simp)
    exact induct null bool int float text list record item
  | record fields =>
    refine record fields fun field mem => ?_
    have smaller : sizeOf field.2 < sizeOf (Data.record fields) := by
      have inside := List.sizeOf_lt_of_mem mem
      obtain ⟨key, value⟩ := field
      simp only [Prod.mk.sizeOf_spec] at inside
      simp only [Data.record.sizeOf_spec]
      omega
    exact induct null bool int float text list record field.2
termination_by sizeOf data
decreasing_by all_goals simpa using smaller

/-! ### Texts -/

mutual

/-- The texts of a document, those of its keys among them. -/
def allTexts : Data → List String
  | .text value => [value]
  | .list items => allTextsOfItems items
  | .record fields => allTextsOfFields fields
  | _ => []

def allTextsOfItems : List Data → List String
  | [] => []
  | item :: items => allTexts item ++ allTextsOfItems items

def allTextsOfFields : List (String × Data) → List String
  | [] => []
  | (key, value) :: fields => key :: allTexts value ++ allTextsOfFields fields

end

theorem allTexts_list (items : List Data) :
    (Data.list items).allTexts = items.flatMap allTexts := by
  rw [allTexts]
  induction items with
  | nil => rfl
  | cons item items ih => exact congrArg (item.allTexts ++ ·) ih

theorem allTexts_record (fields : List (String × Data)) :
    (Data.record fields).allTexts = fields.flatMap fun field => field.1 :: field.2.allTexts := by
  rw [allTexts]
  induction fields with
  | nil => rfl
  | cons field fields ih => exact congrArg (field.1 :: field.2.allTexts ++ ·) ih

theorem mem_allTexts_of_item {items : List Data} {item : Data} (mem : item ∈ items)
    {text : String} (inside : text ∈ item.allTexts) : text ∈ (Data.list items).allTexts := by
  rw [allTexts_list]
  exact List.mem_flatMap.mpr ⟨item, mem, inside⟩

theorem mem_allTexts_of_field {fields : List (String × Data)} {field : String × Data}
    (mem : field ∈ fields) {text : String} (inside : text ∈ field.1 :: field.2.allTexts) :
    text ∈ (Data.record fields).allTexts := by
  rw [allTexts_record]
  exact List.mem_flatMap.mpr ⟨field, mem, inside⟩

/-! ### What holds of all texts -/

/-- All texts of a document are of one kind. -/
def AllTexts (holds : String → Prop) (data : Data) : Prop := ∀ text ∈ data.allTexts, holds text

/-- The key of a field and the texts in its value are of one kind. -/
structure FieldTexts (holds : String → Prop) (field : String × Data) : Prop where
  key : holds field.1
  value : field.2.AllTexts holds

/-- The same of a field that may be left out. -/
structure OptionalTexts (holds : String → Prop) (field : String × Option Data) : Prop where
  key : holds field.1
  value : ∀ value ∈ field.2, value.AllTexts holds

variable {holds : String → Prop}

namespace AllTexts

theorem text {value : String} (own : holds value) : (Data.text value).AllTexts holds :=
  fun _ mem => List.mem_singleton.mp mem ▸ own

theorem list {items : List Data} (all : ∀ item ∈ items, item.AllTexts holds) :
    (Data.list items).AllTexts holds := by
  intro text mem
  rw [allTexts_list] at mem
  obtain ⟨item, own, inside⟩ := List.mem_flatMap.mp mem
  exact all item own text inside

theorem listMap {α : Type u} {items : List α} {write : α → Data}
    (all : ∀ item ∈ items, (write item).AllTexts holds) :
    (Data.list (items.map write)).AllTexts holds :=
  .list (List.forall_mem_map.mpr all)

theorem texts {values : List String} (all : ∀ value ∈ values, holds value) :
    (Data.texts values).AllTexts holds :=
  .listMap fun value mem => .text (all value mem)

theorem record {fields : List (String × Data)} (all : ∀ field ∈ fields, FieldTexts holds field) :
    (Data.record fields).AllTexts holds := by
  intro text mem
  rw [allTexts_record] at mem
  obtain ⟨field, own, inside⟩ := List.mem_flatMap.mp mem
  rcases List.mem_cons.mp inside with rfl | inside
  · exact (all field own).key
  · exact (all field own).value text inside

theorem recordOf {fields : List (String × Option Data)}
    (all : ∀ field ∈ fields, OptionalTexts holds field) :
    (Data.recordOf fields).AllTexts holds := by
  refine .record fun field mem => ?_
  obtain ⟨source, own, made⟩ := List.mem_filterMap.mp mem
  obtain ⟨value, given, rfl⟩ := Option.map_eq_some_iff.mp made
  exact ⟨(all source own).key, (all source own).value value given⟩

end AllTexts

namespace FieldTexts

theorem nil : ∀ field ∈ ([] : List (String × Data)), FieldTexts holds field :=
  fun _ mem => absurd mem List.not_mem_nil

theorem cons {key : String} {value : Data} {fields : List (String × Data)} (own : holds key)
    (all : value.AllTexts holds) (others : ∀ field ∈ fields, FieldTexts holds field) :
    ∀ field ∈ (key, value) :: fields, FieldTexts holds field :=
  List.forall_mem_cons.mpr ⟨⟨own, all⟩, others⟩

theorem zip {keys : List String} {values : List Data} (allKeys : ∀ key ∈ keys, holds key)
    (allValues : ∀ value ∈ values, value.AllTexts holds) :
    ∀ field ∈ keys.zip values, FieldTexts holds field :=
  fun _ mem => ⟨allKeys _ (List.of_mem_zip mem).1, allValues _ (List.of_mem_zip mem).2⟩

end FieldTexts

namespace OptionalTexts

variable {key : String} {fields : List (String × Option Data)}

theorem nil : ∀ field ∈ ([] : List (String × Option Data)), OptionalTexts holds field :=
  fun _ mem => absurd mem List.not_mem_nil

theorem cons {value : Option Data} (own : holds key) (all : ∀ data ∈ value, data.AllTexts holds)
    (others : ∀ field ∈ fields, OptionalTexts holds field) :
    ∀ field ∈ (key, value) :: fields, OptionalTexts holds field :=
  List.forall_mem_cons.mpr ⟨⟨own, all⟩, others⟩

/-- A field that is not left out. -/
theorem given {data : Data} (own : holds key) (all : data.AllTexts holds)
    (others : ∀ field ∈ fields, OptionalTexts holds field) :
    ∀ field ∈ (key, some data) :: fields, OptionalTexts holds field :=
  cons own (fun _ mem => Option.some.inj mem ▸ all) others

/-- A text that is left out where it says nothing new. -/
theorem leftOut {known : Prop} [Decidable known] {text : String} (own : holds key)
    (kind : holds text) (others : ∀ field ∈ fields, OptionalTexts holds field) :
    ∀ field ∈ (key, if known then none else some (Data.text text)) :: fields,
      OptionalTexts holds field := by
  refine cons own ?_ others
  split
  · exact fun _ mem => absurd mem (Option.not_mem_none _)
  · exact fun _ mem => Option.some.inj mem ▸ .text kind

end OptionalTexts

end CiTranslate.Data

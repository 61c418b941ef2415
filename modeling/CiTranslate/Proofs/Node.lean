import CiTranslate.Node
import CiTranslate.Proofs.Fields

/-!
Documents of data.

A record with distinct names becomes a mapping with the same entries, so that what a
document holds under a key can be read off the record (`get?_ofData_record`). Every document
of data has distinct keys at all levels (`keysDistinct_ofData`), and such a document is the
document of its own data (`ofData_toData`).
-/

namespace CiTranslate.Node

variable {floatText : Float → String}

/-! ### Looking into a document -/

@[simp] theorem text?_scalar (text : String) : (Node.scalar text).text? = some text := rfl

@[simp] theorem text?_sequence (items : List Node) : (Node.sequence items).text? = none := rfl

@[simp] theorem text?_mapping (entries : List (String × Node)) :
    (Node.mapping entries).text? = none := rfl

@[simp] theorem items_sequence (items : List Node) : (Node.sequence items).items = items := rfl

@[simp] theorem firstTextAt?_nil (node : Node) : node.firstTextAt? [] = none := rfl

theorem firstTextAt?_cons (key : String) (keys : List String) (node : Node) :
    node.firstTextAt? (key :: keys) = (node.textAt? key).or (node.firstTextAt? keys) := by
  simp only [firstTextAt?, List.findSome?]
  cases node.textAt? key <;> rfl

theorem firstTextAt?_pair (key other : String) (node : Node) :
    node.firstTextAt? [key, other] = (node.textAt? key).or (node.textAt? other) := by
  rw [firstTextAt?_cons, firstTextAt?_cons, firstTextAt?_nil, Option.or_none]

/-! ### Lists and records -/

theorem itemsOfData_eq_map (items : List Data) :
    itemsOfData floatText items = items.map (ofData floatText) := by
  induction items with
  | nil => rfl
  | cons item items ih => rw [itemsOfData, ih, List.map_cons]

theorem entriesOfData_eq_mapValues (fields : List (String × Data)) :
    entriesOfData floatText fields = Fields.mapValues (ofData floatText) fields := by
  induction fields with
  | nil => rfl
  | cons field fields ih =>
    rw [entriesOfData, ih, Fields.mapValues, Fields.mapValues, List.map_cons]

@[simp] theorem ofData_null : ofData floatText .null = .null := rfl

@[simp] theorem ofData_text (text : String) : ofData floatText (.text text) = .scalar text := rfl

@[simp] theorem ofData_list (items : List Data) :
    ofData floatText (.list items) = .sequence (items.map (ofData floatText)) :=
  congrArg sequence (itemsOfData_eq_map items)

@[simp] theorem ofData_texts (texts : List String) :
    ofData floatText (.texts texts) = .sequence (texts.map .scalar) := by
  rw [Data.texts, ofData_list, List.map_map]
  rfl

theorem ofData_record {fields : List (String × Data)} (distinct : (fields.map Prod.fst).Nodup) :
    ofData floatText (.record fields) = .mapping (Fields.mapValues (ofData floatText) fields) := by
  rw [ofData, entriesOfData_eq_mapValues, Fields.ofList_eq_self]
  rwa [Fields.names_mapValues]

/-- What a document holds under a key is what the record holds. -/
@[simp] theorem get?_ofData_record {fields : List (String × Data)}
    (distinct : (fields.map Prod.fst).Nodup) (key : String) :
    (ofData floatText (.record fields)).get? key =
      (Fields.get? key fields).map (ofData floatText) := by
  rw [ofData_record distinct, get?, Fields.get?_mapValues]

/-- A record of distinct keys with their values. -/
theorem ofData_record_zip {keys : List String} {values : List Data} (distinct : keys.Nodup)
    (lengths : keys.length = values.length) :
    ofData floatText (.record (keys.zip values)) =
      .mapping (keys.zip (values.map (ofData floatText))) := by
  have names : (keys.zip values).map Prod.fst = keys := Fields.names_zip lengths
  rw [ofData_record (by rwa [names]), Fields.mapValues_zip]

/-! ### Records with absent fields -/

theorem sublist_names_present (fields : List (String × Option Data)) :
    (Fields.names (fields.filterMap fun field => field.2.map fun value => (field.1, value))).Sublist
      (Fields.names fields) := by
  induction fields with
  | nil => exact List.Sublist.refl _
  | cons field fields ih =>
    obtain ⟨key, value⟩ := field
    cases value with
    | none => exact ih.cons _
    | some value => exact ih.cons_cons _

/-- An absent field is not found, and any other holds its value. -/
theorem get?_present {fields : List (String × Option Data)} (distinct : (fields.map Prod.fst).Nodup)
    (key : String) :
    Fields.get? key (fields.filterMap fun field => field.2.map fun value => (field.1, value)) =
      (Fields.get? key fields).join := by
  induction fields with
  | nil => rfl
  | cons field fields ih =>
    obtain ⟨name, value⟩ := field
    obtain ⟨new, later⟩ := List.nodup_cons.mp distinct
    cases value with
    | some value =>
      simp only [List.filterMap_cons, Option.map_some, Fields.get?_cons, ih later]
      split <;> rfl
    | none =>
      simp only [List.filterMap_cons, Option.map_none, Fields.get?_cons, ih later]
      split
      · next same => rw [Fields.get?_eq_none (same ▸ new)]; rfl
      · rfl

@[simp] theorem get?_ofData_recordOf {fields : List (String × Option Data)}
    (distinct : (fields.map Prod.fst).Nodup) (key : String) :
    (ofData floatText (.recordOf fields)).get? key =
      (Fields.get? key fields).join.map (ofData floatText) := by
  rw [Data.recordOf, get?_ofData_record (distinct.sublist (sublist_names_present fields)),
    get?_present distinct]

/-- A text is found as it was written. -/
@[simp] theorem bind_text?_map_text (value : Option String) :
    (value.map (ofData floatText ∘ Data.text)).bind text? = value := by
  cases value <;> rfl

/-- A record with absent fields becomes a mapping. -/
theorem exists_mapping_ofData_recordOf (floatText : Float → String)
    (fields : List (String × Option Data)) :
    ∃ entries, ofData floatText (.recordOf fields) = .mapping entries :=
  ⟨_, rfl⟩

/-! ### Distinct keys -/

/-- The keys of every mapping in a document are distinct. -/
inductive KeysDistinct : Node → Prop where
  | null : KeysDistinct .null
  | scalar (text : String) : KeysDistinct (.scalar text)
  | sequence {items : List Node} : (∀ item ∈ items, KeysDistinct item) →
      KeysDistinct (.sequence items)
  | mapping {entries : List (String × Node)} : (Fields.names entries).Nodup →
      (∀ entry ∈ entries, KeysDistinct entry.2) → KeysDistinct (.mapping entries)

theorem KeysDistinct.nodup_names_entries {node : Node} (distinct : node.KeysDistinct) :
    (Fields.names (node.entries?.getD [])).Nodup := by
  cases distinct with
  | null => exact List.nodup_nil
  | scalar text => exact List.nodup_nil
  | sequence items => exact List.nodup_nil
  | mapping distinct entries => exact distinct

mutual

/-- A document of data has distinct keys, whatever names the data repeats. -/
theorem keysDistinct_ofData : (data : Data) → KeysDistinct (ofData floatText data)
  | .null => .null
  | .bool value => .scalar (boolText value)
  | .int value => .scalar (toString value)
  | .float value => .scalar (floatText value)
  | .text value => .scalar value
  | .list items => .sequence (keysDistinct_itemsOfData items)
  | .record fields => .mapping (Fields.nodup_names_ofList _)
      (Fields.forall_mem_ofList (keysDistinct_entriesOfData fields))

theorem keysDistinct_itemsOfData :
    (items : List Data) → ∀ item ∈ itemsOfData floatText items, KeysDistinct item
  | [] => fun _ mem => nomatch mem
  | item :: items => fun _ mem => by
    rcases List.mem_cons.mp mem with rfl | later
    · exact keysDistinct_ofData item
    · exact keysDistinct_itemsOfData items _ later

theorem keysDistinct_entriesOfData :
    (fields : List (String × Data)) → ∀ entry ∈ entriesOfData floatText fields, KeysDistinct entry.2
  | [] => fun _ mem => nomatch mem
  | (_, value) :: fields => fun _ mem => by
    rcases List.mem_cons.mp mem with rfl | later
    · exact keysDistinct_ofData value
    · exact keysDistinct_entriesOfData fields _ later

end

mutual

/-- So has a document of a YAML value, also where different keys are written alike. -/
theorem keysDistinct_ofValue : (value : Yaml.Value) → KeysDistinct (ofValue value)
  | .null => .null
  | .bool value => .scalar (boolText value)
  | .int value => .scalar (toString value)
  | .float value => .scalar (Yaml.doubles.write value)
  | .text value => .scalar value
  | .sequence items => .sequence (keysDistinct_itemsOfValues items)
  | .mapping entries => .mapping (Fields.nodup_names_ofList _)
      (Fields.forall_mem_ofList (keysDistinct_entriesOfValues entries))
  | .tagged _ value => keysDistinct_ofValue value

theorem keysDistinct_itemsOfValues :
    (items : List Yaml.Value) → ∀ item ∈ itemsOfValues items, KeysDistinct item
  | [] => fun _ mem => nomatch mem
  | item :: items => fun _ mem => by
    rcases List.mem_cons.mp mem with rfl | later
    · exact keysDistinct_ofValue item
    · exact keysDistinct_itemsOfValues items _ later

theorem keysDistinct_entriesOfValues :
    (entries : List (Yaml.Value × Yaml.Value)) →
      ∀ entry ∈ entriesOfValues entries, KeysDistinct entry.2
  | [] => fun _ mem => nomatch mem
  | (_, value) :: entries => fun _ mem => by
    rcases List.mem_cons.mp mem with rfl | later
    · exact keysDistinct_ofValue value
    · exact keysDistinct_entriesOfValues entries _ later

end

/-! ### The data of a document -/

theorem itemsToData_eq_map (items : List Node) : itemsToData items = items.map toData := by
  induction items with
  | nil => rfl
  | cons item items ih => rw [itemsToData, ih, List.map_cons]

theorem entriesToData_eq_mapValues (entries : List (String × Node)) :
    entriesToData entries = Fields.mapValues toData entries := by
  induction entries with
  | nil => rfl
  | cons entry entries ih =>
    rw [entriesToData, ih, Fields.mapValues, Fields.mapValues, List.map_cons]

/-- A document with distinct keys is the document of its data. -/
theorem ofData_toData {node : Node} (distinct : KeysDistinct node) :
    ofData floatText node.toData = node := by
  induction distinct with
  | null => rfl
  | scalar text => rfl
  | @sequence items _ ih =>
    rw [toData, ofData, itemsToData_eq_map, itemsOfData_eq_map, List.map_map]
    exact congrArg Node.sequence ((List.map_congr_left ih).trans (List.map_id items))
  | @mapping entries distinct _ ih =>
    have same :
        Fields.mapValues (ofData floatText) (Fields.mapValues toData entries) = entries := by
      rw [Fields.mapValues, Fields.mapValues, List.map_map]
      refine (List.map_congr_left fun entry mem => ?_).trans (List.map_id entries)
      exact Prod.ext rfl (ih entry mem)
    rw [toData, ofData, entriesToData_eq_mapValues, entriesOfData_eq_mapValues, same,
      Fields.ofList_eq_self distinct]

end CiTranslate.Node

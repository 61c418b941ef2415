import CiTranslate.Fields

/-!
Named values with distinct names: putting them in one after the other gives the same list,
and every value is found under its name.
-/

namespace CiTranslate.Fields

variable {α : Type u} {β : Type v} {γ : Type w}

/-! ### Names -/

@[simp] theorem names_nil : names ([] : Fields α) = [] := rfl

@[simp] theorem names_cons (field : String × α) (fields : Fields α) :
    names (field :: fields) = field.1 :: names fields := rfl

@[simp] theorem names_append (fields more : Fields α) :
    names (fields ++ more) = names fields ++ names more :=
  List.map_append

theorem names_zip {keys : List String} {values : List α} (lengths : keys.length = values.length) :
    names (keys.zip values) = keys :=
  List.map_fst_zip (Nat.le_of_eq lengths)

theorem mapValues_zip (f : α → β) (keys : List String) (values : List α) :
    mapValues f (keys.zip values) = keys.zip (values.map f) := by
  rw [mapValues, List.zip_map_right]
  rfl

theorem mapValues_mapValues (g : β → γ) (f : α → β) (fields : Fields α) :
    mapValues g (mapValues f fields) = mapValues (g ∘ f) fields := by
  rw [mapValues, mapValues, List.map_map]
  rfl

/-! ### Lists of distinct names -/

/-- A new name is put at the end. -/
theorem put_eq_append {key : String} {value : α} {fields : Fields α}
    (new : key ∉ names fields) : put key value fields = fields ++ [(key, value)] := by
  induction fields with
  | nil => rfl
  | cons field rest ih =>
    obtain ⟨name, old⟩ := field
    obtain ⟨other, new⟩ := not_or.mp (fun mem => new (List.mem_cons.mpr mem))
    rw [put, if_neg (Ne.symm other), ih new, List.cons_append]

theorem foldl_put_eq_append {pairs fields : Fields α} (distinct : (names (fields ++ pairs)).Nodup) :
    pairs.foldl (fun fields pair => put pair.1 pair.2 fields) fields = fields ++ pairs := by
  induction pairs generalizing fields with
  | nil => simp
  | cons pair rest ih =>
    have new : pair.1 ∉ names fields := by
      intro mem
      rw [names_append, names_cons] at distinct
      exact (List.nodup_append.mp distinct).2.2 _ mem _ (List.mem_cons_self ..) rfl
    rw [List.foldl_cons, put_eq_append new, ih (by simpa using distinct), List.append_assoc,
      List.singleton_append]

/-- Fields whose names are distinct are what putting them in gives. -/
theorem ofList_eq_self {fields : Fields α} (distinct : (names fields).Nodup) :
    ofList fields = fields :=
  foldl_put_eq_append (by simpa using distinct)

theorem mem_put {key : String} {value : α} {fields : Fields α} {field : String × α}
    (mem : field ∈ put key value fields) : field = (key, value) ∨ field ∈ fields := by
  induction fields with
  | nil => exact .inl (List.mem_singleton.mp mem)
  | cons first rest ih =>
    rw [put] at mem
    split at mem
    · next own =>
      rcases List.mem_cons.mp mem with rfl | later
      · exact .inl (Prod.ext own rfl)
      · exact .inr (List.mem_cons_of_mem _ later)
    · rcases List.mem_cons.mp mem with rfl | later
      · exact .inr (List.mem_cons_self ..)
      · exact (ih later).imp_right (List.mem_cons_of_mem _)

theorem mem_of_mem_ofList {pairs : Fields α} {field : String × α} (mem : field ∈ ofList pairs) :
    field ∈ pairs := by
  suffices run : ∀ fields : Fields α,
      field ∈ pairs.foldl (fun fields pair => put pair.1 pair.2 fields) fields →
        field ∈ fields ∨ field ∈ pairs from
    (run [] mem).resolve_left List.not_mem_nil
  clear mem
  induction pairs with
  | nil => exact fun fields mem => .inl mem
  | cons pair rest ih =>
    intro fields mem
    rcases ih _ mem with put | later
    · rcases mem_put put with rfl | old
      · exact .inr (List.mem_cons_self ..)
      · exact .inl old
    · exact .inr (List.mem_cons_of_mem _ later)

/-- What holds of all values holds of those that are kept. -/
theorem forall_mem_ofList {holds : α → Prop} {pairs : Fields α}
    (all : ∀ pair ∈ pairs, holds pair.2) : ∀ field ∈ ofList pairs, holds field.2 :=
  fun field mem => all field (mem_of_mem_ofList mem)

/-! ### Looking up -/

@[simp] theorem get?_nil (key : String) : get? key ([] : Fields α) = none := rfl

theorem get?_cons (key name : String) (value : α) (rest : Fields α) :
    get? key ((name, value) :: rest) = if name = key then some value else get? key rest := rfl

theorem get?_eq_none {key : String} {fields : Fields α} (absent : key ∉ names fields) :
    get? key fields = none := by
  induction fields with
  | nil => rfl
  | cons field rest ih =>
    obtain ⟨other, absent⟩ := not_or.mp (fun mem => absent (List.mem_cons.mpr mem))
    rw [get?, if_neg (Ne.symm other), ih absent]

theorem mem_of_get?_eq_some {key : String} {value : α} {fields : Fields α}
    (found : get? key fields = some value) : (key, value) ∈ fields := by
  induction fields with
  | nil => cases found
  | cons field rest ih =>
    rw [get?] at found
    split at found
    · next own =>
      cases found
      exact own ▸ List.mem_cons_self ..
    · exact List.mem_cons_of_mem _ (ih found)

theorem get?_put (key other : String) (value : α) (fields : Fields α) :
    get? other (put key value fields) = if key = other then some value else get? other fields := by
  induction fields with
  | nil => rfl
  | cons field rest ih =>
    obtain ⟨name, old⟩ := field
    rw [put, get?]
    split
    · next own => rw [get?, own]; split <;> rfl
    · next differ =>
      rw [get?, ih]
      split
      · next same => rw [if_neg fun own => differ (same.trans own.symm)]
      · rfl

theorem get?_append (key : String) (fields more : Fields α) :
    get? key (fields ++ more) = (get? key fields).or (get? key more) := by
  induction fields with
  | nil => rfl
  | cons field rest ih =>
    rw [List.cons_append, get?, get?, ih]
    split <;> rfl

/-- Of distinct names, each gives the value it stands with. -/
theorem get?_eq_some_of_mem {key : String} {value : α} {fields : Fields α}
    (distinct : (names fields).Nodup) (mem : (key, value) ∈ fields) :
    get? key fields = some value := by
  induction fields with
  | nil => cases mem
  | cons field rest ih =>
    obtain ⟨new, distinct⟩ := List.nodup_cons.mp distinct
    rcases List.mem_cons.mp mem with rfl | later
    · exact if_pos rfl
    · have other : field.1 ≠ key := by
        rintro rfl
        exact new (List.mem_map.mpr ⟨_, later, rfl⟩)
      rw [get?, if_neg other, ih distinct later]

theorem get?_mapValues (f : α → β) (key : String) (fields : Fields α) :
    get? key (mapValues f fields) = (get? key fields).map f := by
  induction fields with
  | nil => rfl
  | cons field rest ih =>
    simp only [mapValues, List.map_cons, get?] at ih ⊢
    split
    · rfl
    · exact ih

/-- Of pairs with distinct names that are put in, the own one decides. -/
theorem get?_foldl_put {pairs : Fields α} (distinct : (names pairs).Nodup) (key : String)
    (fields : Fields α) :
    get? key (pairs.foldl (fun fields pair => put pair.1 pair.2 fields) fields) =
      (get? key pairs).or (get? key fields) := by
  induction pairs generalizing fields with
  | nil => rfl
  | cons pair rest ih =>
    obtain ⟨new, distinct⟩ := List.nodup_cons.mp distinct
    rw [List.foldl_cons, ih distinct, get?_put, get?]
    split
    · next own => rw [get?_eq_none (own ▸ new), Option.none_or, Option.some_or]
    · rfl

/-! ### Taking out -/

theorem erase_put_self (key : String) (value : α) (fields : Fields α) :
    erase key (put key value fields) = erase key fields := by
  induction fields with
  | nil => exact if_pos rfl
  | cons field rest ih =>
    obtain ⟨name, old⟩ := field
    rw [put]
    split
    · next own => rw [erase, erase, if_pos own, if_pos own]
    · next other => rw [erase, erase, if_neg other, if_neg other, ih]

theorem erase_put_of_ne {key other : String} (differ : other ≠ key) (value : α)
    (fields : Fields α) :
    erase key (put other value fields) = put other value (erase key fields) := by
  induction fields with
  | nil => exact if_neg differ
  | cons field rest ih =>
    obtain ⟨name, old⟩ := field
    by_cases own : name = key
    · rw [put, if_neg (fun same => differ (same.symm.trans own)), erase, if_pos own, erase,
        if_pos own]
    · by_cases same : name = other
      · rw [put, if_pos same, erase, if_neg own, erase, if_neg own, put, if_pos same]
      · rw [put, if_neg same, erase, if_neg own, erase, if_neg own, put, if_neg same, ih]

/-- Fields that differ in one name only do not differ without it, whatever is put in. -/
theorem erase_foldl_put_congr {key : String} {fields others : Fields α}
    (same : erase key fields = erase key others) (pairs : Fields α) :
    erase key (pairs.foldl (fun fields pair => put pair.1 pair.2 fields) fields) =
      erase key (pairs.foldl (fun fields pair => put pair.1 pair.2 fields) others) := by
  induction pairs generalizing fields others with
  | nil => exact same
  | cons pair rest ih =>
    have step : erase key (put pair.1 pair.2 fields) = erase key (put pair.1 pair.2 others) := by
      by_cases own : pair.1 = key
      · rw [own, erase_put_self, erase_put_self, same]
      · rw [erase_put_of_ne own, erase_put_of_ne own, same]
    exact ih step

theorem erase_eq_self {key : String} {fields : Fields α} (absent : get? key fields = none) :
    erase key fields = fields := by
  induction fields with
  | nil => rfl
  | cons field rest ih =>
    obtain ⟨name, value⟩ := field
    rw [get?] at absent
    split at absent
    · cases absent
    · next other => rw [erase, if_neg other, ih absent]

theorem get?_erase_self {key : String} {fields : Fields α} (distinct : (names fields).Nodup) :
    get? key (erase key fields) = none := by
  induction fields with
  | nil => rfl
  | cons field rest ih =>
    obtain ⟨new, distinct⟩ := List.nodup_cons.mp distinct
    rw [erase]
    split
    · next own => exact get?_eq_none (own ▸ new)
    · next other => rw [get?, if_neg other, ih distinct]

theorem get?_erase_of_ne {key other : String} (differ : other ≠ key) (fields : Fields α) :
    get? other (erase key fields) = get? other fields := by
  induction fields with
  | nil => rfl
  | cons field rest ih =>
    obtain ⟨name, value⟩ := field
    rw [erase]
    split
    · next own => rw [get?, if_neg (fun same => differ (same.symm.trans own))]
    · rw [get?, get?, ih]

theorem erase_mapValues (f : α → β) (key : String) (fields : Fields α) :
    erase key (mapValues f fields) = mapValues f (erase key fields) := by
  induction fields with
  | nil => rfl
  | cons field rest ih =>
    simp only [mapValues, List.map_cons, erase] at ih ⊢
    split
    · rfl
    · rw [ih, List.map_cons]

end CiTranslate.Fields

/-!
Named values in the order in which their names first appeared.

`put` is the only way in which a name enters twice: it replaces the value and keeps the
place. The names of a list built by `put` alone are therefore distinct.
-/

namespace CiTranslate

/-- Named values in order. -/
abbrev Fields (α : Type u) := List (String × α)

namespace Fields

variable {α : Type u} {β : Type v}

def get? (key : String) : Fields α → Option α
  | [] => none
  | (name, value) :: rest => if name = key then some value else get? key rest

/-- Replaces the value of a name that is present, and appends a new one. -/
def put (key : String) (value : α) : Fields α → Fields α
  | [] => [(key, value)]
  | (name, old) :: rest =>
    if name = key then (name, value) :: rest else (name, old) :: put key value rest

/-- The values put in one after the other. -/
def ofList (pairs : List (String × α)) : Fields α :=
  pairs.foldl (fun fields pair => put pair.1 pair.2 fields) []

def erase (key : String) : Fields α → Fields α
  | [] => []
  | (name, value) :: rest => if name = key then rest else (name, value) :: erase key rest

def names (fields : Fields α) : List String := fields.map Prod.fst

def mapValues (f : α → β) (fields : Fields α) : Fields β :=
  fields.map fun field => (field.1, f field.2)

theorem mem_names_put {key name : String} {value : α} {fields : Fields α} :
    name ∈ (put key value fields).names ↔ name = key ∨ name ∈ fields.names := by
  induction fields with
  | nil => simp [put, names]
  | cons field rest ih =>
    obtain ⟨first, old⟩ := field
    simp only [put]
    split
    · next h => subst h; simp [names]
    · simp only [names, List.map_cons, List.mem_cons] at ih ⊢
      rw [ih]
      grind

/-- Distinct names stay distinct. -/
theorem nodup_names_put {key : String} {value : α} {fields : Fields α}
    (h : fields.names.Nodup) : (put key value fields).names.Nodup := by
  induction fields with
  | nil => simp [put, names]
  | cons field rest ih =>
    obtain ⟨first, old⟩ := field
    simp only [names, List.map_cons, List.nodup_cons] at h
    simp only [put]
    split
    · simpa [names] using h
    · next hne =>
      have hmem : first ∉ (put key value rest).names := by
        rw [mem_names_put]
        rintro (rfl | hin)
        · exact hne rfl
        · exact h.1 hin
      exact List.nodup_cons.2 ⟨hmem, ih h.2⟩

theorem nodup_names_foldl_put {pairs : List (String × α)} {fields : Fields α}
    (h : fields.names.Nodup) :
    (pairs.foldl (fun fields pair => put pair.1 pair.2 fields) fields).names.Nodup := by
  induction pairs generalizing fields with
  | nil => exact h
  | cons pair rest ih => exact ih (nodup_names_put h)

theorem nodup_names_ofList (pairs : List (String × α)) : (ofList pairs).names.Nodup :=
  nodup_names_foldl_put (by simp [names])

theorem names_mapValues (f : α → β) (fields : Fields α) :
    (mapValues f fields).names = fields.names := by
  simp [mapValues, names]

theorem mem_names_of_mem_names_erase {key name : String} {fields : Fields α}
    (h : name ∈ (erase key fields).names) : name ∈ fields.names := by
  induction fields with
  | nil => simpa [erase] using h
  | cons field rest ih =>
    obtain ⟨first, old⟩ := field
    simp only [erase] at h
    split at h
    · exact List.mem_cons_of_mem _ h
    · simp only [names, List.map_cons, List.mem_cons] at h ih ⊢
      exact h.imp_right ih

theorem nodup_names_erase {key : String} {fields : Fields α}
    (h : fields.names.Nodup) : (erase key fields).names.Nodup := by
  induction fields with
  | nil => simpa [erase] using h
  | cons field rest ih =>
    obtain ⟨first, old⟩ := field
    simp only [names, List.map_cons, List.nodup_cons] at h
    simp only [erase]
    split
    · exact h.2
    · exact List.nodup_cons.2 ⟨fun hin => h.1 (mem_names_of_mem_names_erase hin), ih h.2⟩

end Fields

end CiTranslate

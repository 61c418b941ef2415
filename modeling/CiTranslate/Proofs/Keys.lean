import CiTranslate.Keys
import Mathlib.Data.List.Nodup
import Mathlib.Data.List.Perm.Subperm

/-!
Keys that are handed out are new.

Numbered keys of one base differ, so that among one more of them than there are taken keys
one is free (`keyFor_not_mem`). A run of allocations therefore never repeats a key and never
hands out a taken one (`nodup_allocateAll`, `not_mem_allocateAll`), and leaves bases alone
that are distinct and free already (`allocateAll_eq_self`).
-/

namespace CiTranslate.Keys

/-! ### Numbered keys -/

theorem toList_numbered (base : String) (n : Nat) :
    (numbered base n).toList = base.toList ++ '-' :: (toString n).toList := by
  simp [numbered, ToString.toString]

theorem numbered_injective {base : String} {m n : Nat} (same : numbered base m = numbered base n) :
    m = n := by
  have digits : Nat.toDigits 10 m = Nat.toDigits 10 n := by
    simpa [toList_numbered, Nat.toString_eq_ofList_toDigits] using congrArg String.toList same
  rw [← Nat.ofDigitChars_ten_toDigits (n := m), digits, Nat.ofDigitChars_ten_toDigits]

/-- What the search ends with: a numbered key, all smaller ones being taken. It is taken
itself only where the search has used up its steps. -/
theorem firstFree_eq (taken : List String) (base : String) (steps n : Nat) :
    ∃ m, firstFree taken base steps n = numbered base m ∧ n ≤ m ∧
      (∀ k, n ≤ k → k < m → numbered base k ∈ taken) ∧
      (numbered base m ∈ taken → m = n + steps) := by
  induction steps generalizing n with
  | zero => exact ⟨n, rfl, Nat.le_refl n, fun k low high => by omega, fun _ => rfl⟩
  | succ steps ih =>
    by_cases first : numbered base n ∈ taken
    · obtain ⟨m, found, low, smaller, last⟩ := ih (n + 1)
      refine ⟨m, by simp [firstFree, first, found], by omega, ?_, fun h => by have := last h; omega⟩
      intro k hk hm
      rcases Nat.eq_or_lt_of_le hk with rfl | later
      · exact first
      · exact smaller k later hm
    · exact ⟨n, by simp [firstFree, first], Nat.le_refl n, fun k low high => by omega,
        fun h => absurd h first⟩

/-- More numbered keys than there are taken ones cannot all be taken. -/
theorem exists_numbered_not_mem (taken : List String) (base : String) (n : Nat) :
    ∃ k, n ≤ k ∧ k ≤ n + taken.length ∧ numbered base k ∉ taken := by
  by_contra none
  have all : ∀ k, n ≤ k → k ≤ n + taken.length → numbered base k ∈ taken := by
    intro k low high
    by_contra free
    exact none ⟨k, low, high, free⟩
  let candidates := (List.range' n (taken.length + 1)).map (numbered base)
  have distinct : candidates.Nodup :=
    List.Nodup.map (fun _ _ same => numbered_injective same) List.nodup_range'
  have within : candidates ⊆ taken := by
    intro key mem
    obtain ⟨k, hk, rfl⟩ := List.mem_map.mp mem
    have := List.mem_range'_1.mp hk
    exact all k this.1 (by omega)
  have := (distinct.subperm within).length_le
  simp only [candidates, List.length_map, List.length_range'] at this
  omega

/-! ### One key -/

/-- The key for a base is not taken. -/
theorem keyFor_not_mem (base : String) (keys : Keys) : keys.keyFor base ∉ keys.taken := by
  unfold keyFor
  split
  · obtain ⟨m, found, low, smaller, last⟩ := firstFree_eq keys.taken base keys.taken.length 2
    rw [found]
    intro mem
    obtain ⟨k, hk, high, free⟩ := exists_numbered_not_mem keys.taken base 2
    have := last mem
    rcases Nat.lt_or_eq_of_le (show k ≤ m by omega) with less | rfl
    · exact free (smaller k hk less)
    · exact free mem
  · next free => simpa using free

/-- The key for a base is the base, or a numbered one. -/
theorem keyFor_eq (base : String) (keys : Keys) :
    keys.keyFor base = base ∨ ∃ n, keys.keyFor base = numbered base n := by
  unfold keyFor
  split
  · obtain ⟨m, found, -⟩ := firstFree_eq keys.taken base keys.taken.length 2
    exact .inr ⟨m, found⟩
  · exact .inl rfl

theorem keyFor_eq_self {base : String} {keys : Keys} (free : base ∉ keys.taken) :
    keys.keyFor base = base := by
  simp [keyFor, free]

/-! ### Runs of allocations -/

@[simp] theorem allocateAll_nil (keys : Keys) : (allocateAll [] keys).1 = [] := rfl

@[simp] theorem allocateAll_cons (base : String) (bases : List String) (keys : Keys) :
    (allocateAll (base :: bases) keys).1 =
      keys.keyFor base :: (allocateAll bases ⟨keys.keyFor base :: keys.taken⟩).1 := rfl

@[simp] theorem length_allocateAll (bases : List String) (keys : Keys) :
    (allocateAll bases keys).1.length = bases.length := by
  induction bases generalizing keys with
  | nil => rfl
  | cons base bases ih => simp [ih]

/-- No key that is handed out was taken before. -/
theorem not_mem_allocateAll {bases : List String} {keys : Keys} {key : String}
    (handed : key ∈ (allocateAll bases keys).1) : key ∉ keys.taken := by
  induction bases generalizing keys with
  | nil => simp at handed
  | cons base bases ih =>
    rw [allocateAll_cons] at handed
    rcases List.mem_cons.mp handed with rfl | later
    · exact keyFor_not_mem base keys
    · exact fun taken => ih later (List.mem_cons_of_mem _ taken)

/-- No key is handed out twice. -/
theorem nodup_allocateAll (bases : List String) (keys : Keys) :
    (allocateAll bases keys).1.Nodup := by
  induction bases generalizing keys with
  | nil => simp
  | cons base bases ih =>
    rw [allocateAll_cons]
    exact List.nodup_cons.mpr
      ⟨fun again => not_mem_allocateAll again (List.mem_cons_self ..), ih _⟩

/-- Every key that is handed out is one of the bases, or a numbered one of them. -/
theorem exists_base_of_mem_allocateAll {bases : List String} {keys : Keys} {key : String}
    (handed : key ∈ (allocateAll bases keys).1) :
    ∃ base ∈ bases, key = base ∨ ∃ n, key = numbered base n := by
  induction bases generalizing keys with
  | nil => simp at handed
  | cons base bases ih =>
    rw [allocateAll_cons] at handed
    rcases List.mem_cons.mp handed with rfl | later
    · exact ⟨base, List.mem_cons_self .., keyFor_eq base keys⟩
    · obtain ⟨other, mem, form⟩ := ih later
      exact ⟨other, List.mem_cons_of_mem _ mem, form⟩

/-- Bases that are distinct and not taken are handed out as they are. -/
theorem allocateAll_eq_self {bases : List String} {keys : Keys} (distinct : bases.Nodup)
    (free : ∀ base ∈ bases, base ∉ keys.taken) : (allocateAll bases keys).1 = bases := by
  induction bases generalizing keys with
  | nil => rfl
  | cons base bases ih =>
    obtain ⟨new, distinct⟩ := List.nodup_cons.mp distinct
    have self := keyFor_eq_self (free base (List.mem_cons_self ..))
    rw [allocateAll_cons, self]
    refine congrArg (base :: ·) (ih distinct ?_)
    intro other mem taken
    rcases List.mem_cons.mp taken with rfl | taken
    · exact new mem
    · exact free other (List.mem_cons_of_mem _ mem) taken

/-- Nothing but distinct bases that are not taken is handed out as it is. -/
theorem allocateAll_eq_self_iff {bases : List String} {keys : Keys} :
    (allocateAll bases keys).1 = bases ↔ bases.Nodup ∧ ∀ base ∈ bases, base ∉ keys.taken := by
  constructor
  · intro same
    refine ⟨same ▸ nodup_allocateAll bases keys, fun base mem => ?_⟩
    rw [← same] at mem
    exact not_mem_allocateAll mem
  · rintro ⟨distinct, free⟩
    exact allocateAll_eq_self distinct free

end CiTranslate.Keys

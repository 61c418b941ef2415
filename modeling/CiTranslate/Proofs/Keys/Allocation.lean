import CiTranslate.Proofs.Keys

/-!
The keys of a whole run of allocations, one by one.

* `leastFree_keyFor`: one key. It is the base, or the base with the least number whose key is free
  at that moment.
* `search?_eq_some`: the search for that number, with a counter that cannot be raised beyond
  `largestCount`. It ends at the number before the counter is used up, because the taken keys
  are fewer than the counts (`exists_numbered_not_mem`).
* `allocateAll_minimal`: both for every call of a run. What a call finds taken are the reserved
  keys and those that the calls before it returned.
-/

namespace CiTranslate.Keys

/-! ### The least free key -/

/-- The key that a base has to get: itself if it is free, and else the numbered one that is free
while those with smaller numbers, from two on, are taken. -/
inductive LeastFree (taken : String → Prop) (base : String) : String → Prop where
  | base : ¬taken base → LeastFree taken base base
  | numbered {n : Nat} : taken base → 2 ≤ n → ¬taken (numbered base n) →
      (∀ m, 2 ≤ m → m < n → taken (Keys.numbered base m)) → LeastFree taken base (numbered base n)

/-- The search from `n` on ends at a free key, with a number that is larger than `n` by the count
of taken keys at most, and passes over taken keys only. -/
theorem exists_firstFree_eq (taken : List String) (base : String) (n : Nat) :
    ∃ m, firstFree taken base taken.length n = numbered base m ∧ n ≤ m ∧ m ≤ n + taken.length ∧
      numbered base m ∉ taken ∧ ∀ k, n ≤ k → k < m → numbered base k ∈ taken := by
  obtain ⟨m, found, low, smaller, last⟩ := firstFree_eq taken base taken.length n
  obtain ⟨k, hk, high, free⟩ := exists_numbered_not_mem taken base n
  -- The free number bounds what the search has passed over, so that its steps are not used up.
  have short : m ≤ k := by
    by_contra beyond
    exact free (smaller k hk (by omega))
  refine ⟨m, found, low, by omega, fun mem => ?_, smaller⟩
  obtain rfl : m = k := by have := last mem; omega
  exact free mem

theorem leastFree_keyFor (base : String) (keys : Keys) :
    LeastFree (· ∈ keys.taken) base (keys.keyFor base) := by
  by_cases taken : base ∈ keys.taken
  · obtain ⟨m, found, low, -, free, smaller⟩ := exists_firstFree_eq keys.taken base 2
    rw [keyFor, if_pos (List.contains_iff_mem.mpr taken), found]
    exact .numbered taken low free smaller
  · rw [keyFor_eq_self taken]
    exact .base taken

/-! ### A counter of limited width -/

/-- The largest count, `2 ^ 31 - 1`. -/
def largestCount : Nat := 2147483647

/-- The search with a counter: it tries one number after the other, and ends with nothing when
all counts are used up. -/
def search? (taken : List String) (base : String) (n : Nat) : Option String :=
  if numbered base n ∉ taken then some (numbered base n)
  else if n < largestCount then search? taken base (n + 1)
  else none
termination_by largestCount - n

/-- Hands out a key with that search. -/
def allocate? (base : String) (keys : Keys) : Option (String × Keys) :=
  (if base ∉ keys.taken then some base else search? keys.taken base 2).map fun key =>
    (key, ⟨key :: keys.taken⟩)

/-- Hands out keys in order, as long as the counts suffice. -/
def allocateAll? : List String → Keys → Option (List String × Keys)
  | [], keys => some ([], keys)
  | base :: bases, keys =>
    (allocate? base keys).bind fun (key, keys) =>
      (allocateAll? bases keys).map fun (rest, keys) => (key :: rest, keys)

/-- The counter passes over taken keys up to the first free one. -/
theorem search?_eq_some {taken : List String} {base : String} {n m : Nat} (low : n ≤ m)
    (high : m ≤ largestCount) (free : numbered base m ∉ taken)
    (smaller : ∀ k, n ≤ k → k < m → numbered base k ∈ taken) :
    search? taken base n = some (numbered base m) := by
  obtain ⟨distance, rfl⟩ := Nat.exists_eq_add_of_le low
  induction distance generalizing n with
  | zero =>
    rw [Nat.add_zero] at free ⊢
    rw [search?, if_pos free]
  | succ distance ih =>
    have first : ¬numbered base n ∉ taken := not_not_intro (smaller n (Nat.le_refl n) (by omega))
    rw [show n + (distance + 1) = n + 1 + distance by omega] at high free smaller ⊢
    rw [search?, if_neg first, if_pos (by omega)]
    exact ih (by omega) high free fun k hk hm => smaller k (by omega) hm

/-- A call does not use up the counts if there are more of them than taken keys. -/
theorem allocate?_eq_some (base : String) {keys : Keys}
    (few : keys.taken.length + 2 ≤ largestCount) :
    allocate? base keys = some (keys.allocate base) := by
  by_cases taken : base ∈ keys.taken
  · obtain ⟨m, found, low, short, free, smaller⟩ := exists_firstFree_eq keys.taken base 2
    have key : keys.keyFor base = numbered base m := by
      rw [keyFor, if_pos (List.contains_iff_mem.mpr taken), found]
    rw [allocate?, if_neg (not_not_intro taken),
      search?_eq_some low (by omega) free smaller, Option.map_some, allocate, key]
  · rw [allocate?, if_pos taken, Option.map_some, allocate, keyFor_eq_self taken]

/-- Nor does a run: every call adds one taken key. -/
theorem allocateAll?_eq_some (bases : List String) {keys : Keys}
    (few : keys.taken.length + bases.length + 1 ≤ largestCount) :
    allocateAll? bases keys = some (allocateAll bases keys) := by
  induction bases generalizing keys with
  | nil => rfl
  | cons base bases ih =>
    rw [List.length_cons] at few
    rw [allocateAll?, allocate?_eq_some base (by omega), Option.bind_some]
    dsimp only
    rw [ih (by simp only [allocate, List.length_cons]; omega)]
    rfl

/-! ### Runs -/

/-- Each call of a run finds the keys of the calls before it taken, besides those that were taken
from the start. -/
theorem leastFree_allocateAll {bases : List String} {keys : Keys} {i : Nat} {base : String}
    (call : bases[i]? = some base) :
    ∃ key, (allocateAll bases keys).1[i]? = some key ∧
      LeastFree (fun other => other ∈ keys.taken ∨ other ∈ (allocateAll bases keys).1.take i)
        base key := by
  induction bases generalizing keys i with
  | nil => cases call
  | cons first bases ih =>
    rw [allocateAll_cons]
    cases i with
    | zero =>
      obtain rfl := Option.some.inj call
      refine ⟨keys.keyFor first, rfl, ?_⟩
      simpa using leastFree_keyFor first keys
    | succ i =>
      obtain ⟨key, found, least⟩ := @ih ⟨keys.keyFor first :: keys.taken⟩ i call
      refine ⟨key, found, ?_⟩
      have taken : (fun other => other ∈ keys.taken ∨ other ∈ (keys.keyFor first ::
            (allocateAll bases ⟨keys.keyFor first :: keys.taken⟩).1).take (i + 1)) =
          fun other => other ∈ keys.keyFor first :: keys.taken ∨
            other ∈ (allocateAll bases ⟨keys.keyFor first :: keys.taken⟩).1.take i := by
        funext other
        simp only [List.take_succ_cons, List.mem_cons, eq_iff_iff]
        tauto
      rwa [taken]

/-- The keys that a run hands out. -/
def handedOut (reserved bases : List String) : List String :=
  (allocateAll bases (.reserving reserved)).1

/-- **Keys are unique, minimal and always found.** With fewer than `2 ^ 31 - 2` reserved keys and
bases, no call uses up the counter of its search, and every base gets a key. No key is returned
twice, and none is reserved. Each is its base, or the base with the least number that was free when
it was asked for. Bases that are distinct and not reserved are their own keys. -/
theorem allocateAll_minimal (reserved bases : List String)
    (few : reserved.length + bases.length < largestCount - 1) :
    allocateAll? bases (.reserving reserved) = some (allocateAll bases (.reserving reserved)) ∧
      (handedOut reserved bases).length = bases.length ∧
      (handedOut reserved bases).Nodup ∧
      (∀ key ∈ handedOut reserved bases, key ∉ reserved) ∧
      (∀ (i : Nat) (base : String), bases[i]? = some base →
        ∃ key, (handedOut reserved bases)[i]? = some key ∧
          LeastFree (fun other => other ∈ reserved ∨ other ∈ (handedOut reserved bases).take i)
            base key) ∧
      (bases.Nodup → (∀ base ∈ bases, base ∉ reserved) → handedOut reserved bases = bases) := by
  have counted : (Keys.reserving reserved).taken.length + bases.length + 1 ≤ largestCount := by
    change reserved.length + bases.length + 1 ≤ largestCount
    omega
  exact ⟨allocateAll?_eq_some bases counted, length_allocateAll bases _, nodup_allocateAll bases _,
    fun key handed => not_mem_allocateAll handed, fun i base call => leastFree_allocateAll call,
    fun distinct free => allocateAll_eq_self distinct free⟩

/-- A base that is repeated, a base that is a numbered key already, and a reserved one. -/
theorem allocateAll_minimal_build :
    handedOut ["stages"] ["build", "build", "build-3", "build", "stages"] =
        ["build", "build-2", "build-3", "build-4", "stages-2"] ∧
      allocateAll? ["build", "build", "build-3", "build", "stages"] (.reserving ["stages"]) =
        some (allocateAll ["build", "build", "build-3", "build", "stages"]
          (.reserving ["stages"])) ∧
      LeastFree (fun other => other ∈ ["stages"] ∨ other ∈ ["build", "build-2", "build-3"])
        "build" "build-4" ∧
      handedOut ["stages"] ["build", "test"] = ["build", "test"] := by
  have keys : handedOut ["stages"] ["build", "build", "build-3", "build", "stages"] =
      ["build", "build-2", "build-3", "build-4", "stages-2"] := by
    decide
  obtain ⟨found, -, -, -, least, -⟩ := allocateAll_minimal ["stages"]
    ["build", "build", "build-3", "build", "stages"] (by decide)
  obtain ⟨-, -, -, -, -, self⟩ := allocateAll_minimal ["stages"] ["build", "test"] (by decide)
  obtain ⟨key, fourth, own⟩ := least 3 "build" rfl
  rw [keys] at fourth own
  obtain rfl := Option.some.inj fourth
  exact ⟨keys, found, own, self (by decide) (by decide)⟩

end CiTranslate.Keys

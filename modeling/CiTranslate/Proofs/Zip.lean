/-!
Two lists that are combined pair by pair: what depends on one side only, what is not changed by
combining again, and when the left side is determined by the right one.
-/

namespace CiTranslate

variable {α : Type u} {β : Type v} {γ : Type w} {δ : Type x}

/-- What depends on the left side only is that of the left list. -/
theorem map_zipWith_left {f : α → β → γ} {g : γ → δ} {own : α → δ}
    (left : ∀ a b, g (f a b) = own a) {as : List α} {bs : List β}
    (lengths : as.length = bs.length) : (List.zipWith f as bs).map g = as.map own := by
  induction as generalizing bs with
  | nil => rfl
  | cons a as ih =>
    cases bs with
    | nil => cases lengths
    | cons b bs =>
      rw [List.zipWith_cons_cons, List.map_cons, left, ih (Nat.succ.inj lengths), List.map_cons]

/-- What depends on the right side only is that of the right list. -/
theorem map_zipWith_right {f : α → β → γ} {g : γ → δ} {own : β → δ}
    (right : ∀ a b, g (f a b) = own b) {as : List α} {bs : List β}
    (lengths : as.length = bs.length) : (List.zipWith f as bs).map g = bs.map own := by
  induction as generalizing bs with
  | nil =>
    cases bs with
    | nil => rfl
    | cons b bs => cases lengths
  | cons a as ih =>
    cases bs with
    | nil => cases lengths
    | cons b bs =>
      rw [List.zipWith_cons_cons, List.map_cons, right, ih (Nat.succ.inj lengths), List.map_cons]

/-- Combining again with the same left list changes nothing where it changes no pair. -/
theorem zipWith_zipWith_self {f : α → β → β} (again : ∀ a b, f a (f a b) = f a b) (as : List α)
    (bs : List β) : List.zipWith f as (List.zipWith f as bs) = List.zipWith f as bs := by
  induction as generalizing bs with
  | nil => rfl
  | cons a as ih =>
    cases bs with
    | nil => rfl
    | cons b bs => rw [List.zipWith_cons_cons, List.zipWith_cons_cons, again, ih]

/-- Where the pairs tell the left list, it is the one that they are made with. -/
theorem zipWith_eq_map_iff {f : α → β → γ} (tells : ∀ a a' b, f a b = f a' b → a = a')
    (own : β → α) {as : List α} {bs : List β} (lengths : as.length = bs.length) :
    List.zipWith f as bs = bs.map (fun b => f (own b) b) ↔ as = bs.map own := by
  induction as generalizing bs with
  | nil =>
    cases bs with
    | nil => simp
    | cons b bs => cases lengths
  | cons a as ih =>
    cases bs with
    | nil => cases lengths
    | cons b bs =>
      have first : f a b = f (own b) b ↔ a = own b :=
        ⟨tells a (own b) b, fun same => by rw [same]⟩
      rw [List.zipWith_cons_cons, List.map_cons, List.map_cons, List.cons.injEq, List.cons.injEq,
        first, ih (Nat.succ.inj lengths)]

end CiTranslate

import CiTranslate.Decimal.Layout

/-!
The characters of numbers: digits, and the marks that the layout puts among them.
-/

namespace CiTranslate.Decimal

variable {p : Char → Prop}

/-! ### Integers -/

theorem forall_mem_toDigits (digit : ∀ c, c.isDigit = true → p c) (n : Nat) :
    ∀ c ∈ Nat.toDigits 10 n, p c :=
  fun c mem => digit c (Nat.isDigit_of_mem_toDigits (by decide) (by decide) mem)

theorem forall_mem_toString_int (digit : ∀ c, c.isDigit = true → p c) (minus : p '-') (n : Int) :
    ∀ c ∈ (toString n).toList, p c := by
  have natural (m : Nat) : ∀ c ∈ (toString m).toList, p c := by
    rw [Nat.toString_eq_ofList_toDigits, String.toList_ofList]
    exact forall_mem_toDigits digit m
  cases n with
  | ofNat m => exact natural m
  | negSucc m =>
    intro c mem
    have shape : (toString (Int.negSucc m)).toList = '-' :: (toString (m + 1)).toList := by
      simp [ToString.toString, Int.repr]
    rw [shape] at mem
    rcases List.mem_cons.mp mem with rfl | mem
    · exact minus
    · exact natural (m + 1) c mem

/-! ### Doubles -/

theorem forall_mem_plain (zero : p '0') (point : p '.') {digits : List Char}
    (all : ∀ c ∈ digits, p c) (exponent : Int) : ∀ c ∈ plain digits exponent, p c := by
  have zeros (n : Nat) : ∀ c ∈ zeros n, p c := fun c mem => (List.mem_replicate.mp mem).2 ▸ zero
  intro c mem
  rw [plain] at mem
  split at mem
  · simp only [List.mem_append, List.mem_cons, List.not_mem_nil, or_false] at mem
    rcases mem with (mem | mem) | rfl | rfl
    · exact all c mem
    · exact zeros _ c mem
    · exact point
    · exact zero
  · split at mem
    · simp only [List.mem_append, List.mem_cons] at mem
      rcases mem with mem | rfl | mem
      · exact all c (List.mem_of_mem_take mem)
      · exact point
      · exact all c (List.mem_of_mem_drop mem)
    · simp only [List.mem_append, List.mem_cons, List.not_mem_nil, or_false] at mem
      rcases mem with ((rfl | rfl) | mem) | mem
      · exact zero
      · exact point
      · exact zeros _ c mem
      · exact all c mem

theorem forall_mem_scientific (layout : Layout) (digit : ∀ c, c.isDigit = true → p c)
    (marks : ∀ c ∈ ['.', 'e', '+', '-'], p c) {digits : List Char} (all : ∀ c ∈ digits, p c)
    (power : Int) : ∀ c ∈ scientific layout digits power, p c := by
  have fraction : ∀ c ∈ if digits.length = 1 then [] else '.' :: digits.drop 1, p c := by
    intro c mem
    split at mem
    · cases mem
    · rcases List.mem_cons.mp mem with rfl | mem
      · exact marks '.' (by simp)
      · exact all c (List.mem_of_mem_drop mem)
  have sign : ∀ c ∈ if power < 0 then ['-'] else if layout.plusSign then ['+'] else [], p c := by
    intro c mem
    split at mem
    · exact List.mem_singleton.mp mem ▸ marks '-' (by simp)
    · split at mem
      · exact List.mem_singleton.mp mem ▸ marks '+' (by simp)
      · cases mem
  intro c mem
  simp only [scientific, List.mem_append, List.mem_cons] at mem
  rcases mem with (mem | mem) | rfl | mem | mem
  · exact all c (List.mem_of_mem_take mem)
  · exact fraction c mem
  · exact marks 'e' (by simp)
  · exact sign c mem
  · exact forall_mem_toDigits digit _ c mem

theorem forall_mem_magnitude (layout : Layout) (digit : ∀ c, c.isDigit = true → p c)
    (marks : ∀ c ∈ ['.', 'e', '+', '-'], p c) (d : Magnitude) :
    ∀ c ∈ layout.magnitude d, p c := by
  have all : ∀ c ∈ Nat.toDigits 10 d.digits, p c := forall_mem_toDigits digit _
  unfold Layout.magnitude
  dsimp only
  split
  · exact forall_mem_plain (digit '0' rfl) (marks '.' (by simp)) all _
  · exact forall_mem_scientific layout digit marks all _

/-- A double is written with digits, marks, and the words of its layout. -/
theorem forall_mem_write (layout : Layout) (digit : ∀ c, c.isDigit = true → p c)
    (marks : ∀ c ∈ ['.', 'e', '+', '-'], p c)
    (words : ∀ c ∈ layout.infinity.toList ++ layout.notANumber.toList, p c) (x : Float) :
    ∀ c ∈ (layout.write x).toList, p c := by
  have sign : ∀ c ∈ (if Nat.pow 2 63 ≤ x.toBits.toNat then "-" else "").toList, p c := by
    intro c mem
    split at mem
    · exact List.mem_singleton.mp mem ▸ marks '-' (by simp)
    · cases mem
  intro c mem
  unfold Layout.write at mem
  split at mem
  · exact words c (List.mem_append_right _ mem)
  · dsimp only at mem
    split at mem
    · rw [String.toList_append] at mem
      rcases List.mem_append.mp mem with mem | mem
      · exact sign c mem
      · exact words c (List.mem_append_left _ mem)
    · rw [String.toList_append, String.toList_ofList] at mem
      rcases List.mem_append.mp mem with mem | mem
      · exact sign c mem
      · exact forall_mem_magnitude layout digit marks _ c mem

end CiTranslate.Decimal

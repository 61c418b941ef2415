/-!
Digits of bases up to 16, and the natural numbers that they write.
-/

namespace CiTranslate.Text

/-- The value of a hexadecimal digit, in either case. -/
def hexDigit? (c : Char) : Option Nat :=
  if '0' ≤ c ∧ c ≤ '9' then some (c.toNat - '0'.toNat)
  else if 'a' ≤ c ∧ c ≤ 'f' then some (c.toNat - 'a'.toNat + 10)
  else if 'A' ≤ c ∧ c ≤ 'F' then some (c.toNat - 'A'.toNat + 10)
  else none

/-- The value of a digit of a base. -/
def digit? (base : Nat) (c : Char) : Option Nat := (hexDigit? c).filter (· < base)

/-- The number that digits write after those of `n`. -/
def numberFrom? (base : Nat) (n : Nat) : List Char → Option Nat
  | [] => some n
  | c :: digits => (digit? base c).bind fun digit => numberFrom? base (base * n + digit) digits

/-- The number that digits of a base write; there has to be a digit. -/
def natural? (base : Nat) (digits : List Char) : Option Nat :=
  if digits.isEmpty then none else numberFrom? base 0 digits

/-- The number that exactly `count` digits write at the start of a text. -/
def naturalOf? (base count : Nat) (text : List Char) : Option Nat :=
  let digits := text.take count
  if digits.length = count then natural? base digits else none

/-- The value of a decimal digit. -/
def decimalDigit (c : Char) : Nat := c.toNat - '0'.toNat

/-- The number that decimal digits write. -/
def decimal (digits : List Char) : Nat := digits.foldl (fun n c => 10 * n + decimalDigit c) 0

end CiTranslate.Text

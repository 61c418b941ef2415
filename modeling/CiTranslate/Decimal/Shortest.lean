/-!
The shortest decimal that reads back as a given binary number.

A finite double is decoded into `m · 2^q`. The decimals that read back as it form an
interval around it, and of those the one with the fewest digits is chosen; among decimals
with as many digits, the nearest. All comparisons are made on natural numbers.
-/

namespace CiTranslate.Decimal

/-- The magnitude `mantissa · 2^exponent` of a finite double. -/
structure Binary where
  mantissa : Nat
  exponent : Int
  deriving DecidableEq, Repr

/-- Reads the two fields of a double's bits; subnormal numbers lack the leading bit. -/
def Binary.ofFloat (x : Float) : Binary :=
  let bits : Nat := x.toBits.toNat
  let fraction : Nat := bits % Nat.pow 2 52
  let field : Nat := bits / Nat.pow 2 52 % Nat.pow 2 11
  if field = 0 then ⟨fraction, -1074⟩ else ⟨fraction + Nat.pow 2 52, (field : Int) - 1075⟩

/-- The magnitude `digits · 10^exponent`. -/
structure Magnitude where
  digits : Nat
  exponent : Int
  deriving DecidableEq, Repr

/-- A point of a decimal grid, `digits · 10^exponent`, compared with `quarters · 2^exponent`:
both sides as natural numbers over a common denominator. -/
def sides (digits : Nat) (grid : Int) (quarters : Nat) (exponent : Int) : Nat × Nat :=
  (digits * Nat.pow 10 grid.toNat * Nat.pow 2 (-exponent).toNat,
    quarters * Nat.pow 10 (-grid).toNat * Nat.pow 2 exponent.toNat)

/-- The binary numbers that lie as near to one double as to its neighbours bound the
decimals that read back as it. They are given in quarters of the unit in the last place,
and belong to the interval when the mantissa is even. -/
structure Interval where
  low : Nat
  value : Nat
  high : Nat
  exponent : Int
  closed : Bool

/-- Below a power of two the lower neighbour is only half as far. -/
def Binary.interval (b : Binary) : Interval :=
  let below := if b.mantissa = Nat.pow 2 52 ∧ -1074 < b.exponent then 1 else 2
  { low := 4 * b.mantissa - below
    value := 4 * b.mantissa
    high := 4 * b.mantissa + 2
    exponent := b.exponent - 2
    closed := b.mantissa % 2 == 0 }

def Interval.has (i : Interval) (digits : Nat) (grid : Int) : Bool :=
  let low := sides digits grid i.low i.exponent
  let high := sides digits grid i.high i.exponent
  if i.closed then low.2 ≤ low.1 && high.1 ≤ high.2 else low.2 < low.1 && high.1 < high.2

/-- The grid point at or below the value. -/
def Interval.floor (i : Interval) (grid : Int) : Nat :=
  let unit := sides 1 grid i.value i.exponent
  unit.2 / unit.1

/-- Of the two grid points around the value the one that reads back; of two such the
nearer, and of two as near the even one. -/
def Interval.hit? (i : Interval) (grid : Int) : Option Nat :=
  let below := i.floor grid
  match i.has below grid, i.has (below + 1) grid with
  | true, true =>
    let middle := sides (2 * below + 1) grid (2 * i.value) i.exponent
    if middle.2 < middle.1 then some below
    else if middle.1 < middle.2 then some (below + 1)
    else some (if below % 2 = 0 then below else below + 1)
  | true, false => some below
  | false, true => some (below + 1)
  | false, false => none

/-- The power of ten of the value's first digit, found on the value times `10^400`. -/
def Interval.leading (i : Interval) : Int :=
  let shifted :=
    i.value * Nat.pow 10 400 * Nat.pow 2 i.exponent.toNat / Nat.pow 2 (-i.exponent).toNat
  ((Nat.toDigits 10 shifted).length : Int) - 401

/-- Moves the zeros at the end of the digits into the exponent. -/
def Magnitude.stripZeros : Nat → Magnitude → Magnitude
  | 0, d => d
  | steps + 1, d =>
    if d.digits ≠ 0 ∧ d.digits % 10 = 0 then
      stripZeros steps ⟨d.digits / 10, d.exponent + 1⟩
    else d

/-- Tries grids of more and more digits; 17 digits always suffice. -/
def Interval.search (i : Interval) (leading : Int) : Nat → Nat → Magnitude
  | 0, count => ⟨i.floor (leading - count), leading - count⟩
  | more + 1, count =>
    match i.hit? (leading - count) with
    | some digits => (⟨digits, leading - count⟩ : Magnitude).stripZeros 18
    | none => i.search leading more (count + 1)

/-- The shortest decimal that reads back as the double's magnitude. -/
def shortest (x : Float) : Magnitude :=
  let b := Binary.ofFloat x
  if b.mantissa = 0 then ⟨0, 0⟩
  else
    let i := b.interval
    i.search i.leading 17 0

end CiTranslate.Decimal

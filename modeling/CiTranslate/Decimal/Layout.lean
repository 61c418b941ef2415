import CiTranslate.Decimal.Shortest

/-!
Where the digits of a decimal stand when it is written: with the point among them, or as
one leading digit with a power of ten. The decisions of a format are one `Layout` value.
-/

namespace CiTranslate.Decimal

/-- How a format writes doubles. A number is written without a power of ten when the power
of its first digit lies between `plainFrom` and `plainTo`; such a number always has a
point. -/
structure Layout where
  plainFrom : Int
  plainTo : Int
  /-- Whether a power that is not negative has a plus sign. -/
  plusSign : Bool
  infinity : String
  notANumber : String

def zeros (n : Nat) : List Char := List.replicate n '0'

/-- A decimal without a power of ten. -/
def plain (digits : List Char) (exponent : Int) : List Char :=
  let point := digits.length + exponent
  if 0 ≤ exponent then digits ++ zeros exponent.toNat ++ ['.', '0']
  else if 0 < point then digits.take point.toNat ++ '.' :: digits.drop point.toNat
  else ['0', '.'] ++ zeros (-point).toNat ++ digits

/-- A decimal with one digit before the point and a power of ten. -/
def scientific (layout : Layout) (digits : List Char) (power : Int) : List Char :=
  let fraction := if digits.length = 1 then [] else '.' :: digits.drop 1
  let sign := if power < 0 then ['-'] else if layout.plusSign then ['+'] else []
  digits.take 1 ++ fraction ++ 'e' :: (sign ++ Nat.toDigits 10 power.natAbs)

def Layout.magnitude (layout : Layout) (d : Magnitude) : List Char :=
  let digits := Nat.toDigits 10 d.digits
  let power := digits.length + d.exponent - 1
  if layout.plainFrom ≤ power ∧ power ≤ layout.plainTo then plain digits d.exponent
  else scientific layout digits power

/-- The text of a double; the sign of a zero is kept. -/
def Layout.write (layout : Layout) (x : Float) : String :=
  if x.isNaN then layout.notANumber
  else
    let sign := if Nat.pow 2 63 ≤ x.toBits.toNat then "-" else ""
    if x.isInf then sign ++ layout.infinity
    else sign ++ String.ofList (layout.magnitude (shortest x))

/-- The double nearest to `digits · 10^exponent`. Powers far outside the range of doubles
are settled by the number of digits. -/
def nearest (digits : Nat) (exponent : Int) : Float :=
  if digits = 0 then 0
  else
    let size := (Nat.toDigits 10 digits).length + exponent
    if 310 < size then 1 / 0
    else if size < -330 then 0
    else Float.ofScientific digits (exponent < 0) exponent.natAbs

end CiTranslate.Decimal

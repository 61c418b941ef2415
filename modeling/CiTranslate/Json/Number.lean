import CiTranslate.Decimal.Layout
import CiTranslate.Json.Fault
import CiTranslate.Text.Digits

/-!
Numbers in JSON texts. A number without point and power is an integer as long as it fits
64 bits. All others are doubles, made from at most 64 bits of digits by one
multiplication or division with a power of ten.
-/

namespace CiTranslate.Json

/-- Doubles have no power of ten from `1e-5` up to below `1e16`; other powers have a sign. -/
def doubles : Decimal.Layout :=
  { plainFrom := -5, plainTo := 15, plusSign := true, infinity := "inf", notANumber := "NaN" }

/-- The largest number that 64 bits hold. -/
def largest64 : Nat := Nat.pow 2 64 - 1

/-- Appends digits to a number while it fits 64 bits, and counts them. -/
def appendDigits (n count : Nat) : List Char → Nat × Nat
  | [] => (n, count)
  | c :: digits =>
    if 10 * n + Text.decimalDigit c ≤ largest64 then
      appendDigits (10 * n + Text.decimalDigit c) (count + 1) digits
    else (n, count)

def powerOfTen (n : Nat) : Float := Float.ofScientific 1 false n

/-- Divides by `10^308` until the power that is left is at most 308, or the value is zero. -/
def scaleDown : Nat → Float → Nat → Float
  | 0, x, _ => x
  | steps + 1, x, power =>
    if power ≤ 308 then x / powerOfTen power
    else if x == 0 then x
    else scaleDown steps (x / powerOfTen 308) (power - 308)

/-- `significand · 10^power`, or nothing when that exceeds the doubles. -/
def scale? (significand : Nat) (power : Int) : Option Float :=
  let x := (UInt64.ofNat significand).toFloat
  if power < 0 then some (scaleDown 4 x power.natAbs)
  else if power ≤ 308 then
    let y := x * powerOfTen power.natAbs
    if y.isInf then none else some y
  else if x == 0 then some x
  else none

def signed (negative : Bool) (x : Float) : Float := if negative then -x else x

/-- The powers of ten that are told apart; beyond them a number is zero or out of range. -/
def clampPower (power : Int) : Int := max (-Int.pow 2 31) (min (Int.pow 2 31 - 1) power)

/-- Ends a double after its significand. -/
def scaled (negative : Bool) (significand : Nat) (power : Int) (rest : List Char) :
    Except Fault (Float × List Char) :=
  match scale? significand power with
  | some x => .ok (signed negative x, rest)
  | none => .error (faultAt .numberOutOfRange rest)

/-- The digits of a power of ten that still fit 31 bits, and the text after them. -/
def powerDigits (n : Nat) : List Char → Nat × List Char
  | [] => (n, [])
  | c :: rest =>
    if c.isDigit then
      if 10 * n + Text.decimalDigit c < Nat.pow 2 31 then
        powerDigits (10 * n + Text.decimalDigit c) rest
      else (n, c :: rest)
    else (n, c :: rest)

/-- Reads the power of ten, whose mark is already read. -/
def readPower (negative : Bool) (significand : Nat) (power : Int) (text : List Char) :
    Except Fault (Float × List Char) :=
  let (down, text) := match text with
    | '+' :: rest => (false, rest)
    | '-' :: rest => (true, rest)
    | _ => (false, text)
  match text with
  | [] => .error (faultAt .endOfValue [])
  | c :: rest =>
    if c.isDigit then
      let (n, rest) := powerDigits (Text.decimalDigit c) rest
      match rest with
      | d :: more =>
        if d.isDigit then
          if significand ≠ 0 ∧ !down then .error (faultAt .numberOutOfRange more)
          else .ok (signed negative 0, more.dropWhile Char.isDigit)
        else scaled negative significand (clampPower (if down then power - n else power + n)) rest
      | [] => scaled negative significand (clampPower (if down then power - n else power + n)) []
    else .error (faultOn .invalidNumber (c :: rest))

/-- Reads the digits after the point, which is already read. -/
def readFraction (negative : Bool) (significand : Nat) (power : Int) (text : List Char) :
    Except Fault (Float × List Char) :=
  let digits := text.takeWhile Char.isDigit
  let rest := text.dropWhile Char.isDigit
  if digits.isEmpty then
    .error (faultOn (if rest.isEmpty then .endOfValue else .invalidNumber) rest)
  else
    let (n, count) := appendDigits significand 0 digits
    match rest with
    | 'e' :: rest => readPower negative n (power - count) rest
    | 'E' :: rest => readPower negative n (power - count) rest
    | _ => scaled negative n (power - count) rest

/-- An integer, unless it needs more than 64 bits. There is no integer minus zero. -/
def integer (negative : Bool) (n : Nat) : Data :=
  if !negative then .int n
  else if n ≠ 0 ∧ n ≤ Nat.pow 2 63 then .int (-n)
  else .float (-(UInt64.ofNat n).toFloat)

def asData (result : Except Fault (Float × List Char)) : Except Fault (Data × List Char) :=
  result.map fun (x, rest) => (.float x, rest)

/-- Reads a number whose sign is already read. -/
def readNumber (negative : Bool) : List Char → Except Fault (Data × List Char)
  | [] => .error (faultAt .endOfValue [])
  | c :: text =>
    if !c.isDigit then .error (faultOn .invalidNumber (c :: text))
    else
      let more := text.takeWhile Char.isDigit
      let rest := text.dropWhile Char.isDigit
      if c = '0' ∧ !more.isEmpty then .error (faultOn .invalidNumber text)
      else
        let (n, count) := appendDigits (Text.decimalDigit c) 0 more
        let power : Int := more.length - count
        match rest with
        | '.' :: rest => asData (readFraction negative n power rest)
        | 'e' :: rest => asData (readPower negative n power rest)
        | 'E' :: rest => asData (readPower negative n power rest)
        | _ =>
          if power = 0 then .ok (integer negative n, rest)
          else asData (scaled negative n power rest)

end CiTranslate.Json

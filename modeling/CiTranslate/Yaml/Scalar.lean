import CiTranslate.Decimal.Layout
import CiTranslate.Text.Digits
import CiTranslate.Text.Search

/-!
What a plain scalar stands for: null, a truth value, a number, or else its text.

Integers are decimal, hexadecimal (`0x`), octal (`0o`) or binary (`0b`), with an optional
sign. Digits with a leading zero are text.
-/

namespace CiTranslate.Yaml

/-- Doubles have no power of ten from `1e-5` up to below `1e16`. -/
def doubles : Decimal.Layout :=
  { plainFrom := -5, plainTo := 15, plusSign := false, infinity := ".inf", notANumber := ".nan" }

/-- What a plain scalar stands for. -/
inductive Scalar where
  | null
  | bool (value : Bool)
  | int (value : Int)
  /-- An integer of more than 64 bits that fits 128. -/
  | wide (value : Int)
  | float (value : Float)
  | text
  deriving Repr

def isNullWord (text : List Char) : Bool :=
  ["null", "Null", "NULL", "~"].contains (String.ofList text)

def boolWord? (text : List Char) : Option Bool :=
  let word := String.ofList text
  if ["true", "True", "TRUE"].contains word then some true
  else if ["false", "False", "FALSE"].contains word then some false
  else none

/-- The text after a sign. -/
def withoutSign : List Char → List Char
  | '+' :: text => text
  | '-' :: text => text
  | text => text

/-- Several digits of which the first is zero, with an optional sign. -/
def isPadded (text : List Char) : Bool :=
  match withoutSign text with
  | '0' :: digits => !digits.isEmpty && digits.all Char.isDigit
  | _ => false

/-- An integer without a sign. -/
def magnitude? : List Char → Option Nat
  | '0' :: 'x' :: digits => Text.natural? 16 digits
  | '0' :: 'o' :: digits => Text.natural? 8 digits
  | '0' :: 'b' :: digits => Text.natural? 2 digits
  | digits => if isPadded digits then none else Text.natural? 10 digits

def integer? : List Char → Option Int
  | '-' :: digits => (magnitude? digits).map fun n => -(n : Int)
  | '+' :: digits => (magnitude? digits).map Int.ofNat
  | digits => (magnitude? digits).map Int.ofNat

/-- An integer by its size. Beyond 128 bits it is none. -/
def sized? (n : Int) : Option Scalar :=
  if -Int.pow 2 63 ≤ n ∧ n < Int.pow 2 64 then some (.int n)
  else if -Int.pow 2 127 ≤ n ∧ n < Int.pow 2 128 then some (.wide n)
  else none

/-- Digits with an optional point among them: all digits as one number, and how many stand
after the point. -/
def decimal? (text : List Char) : Option (Nat × Nat) :=
  let whole := text.takeWhile Char.isDigit
  match text.dropWhile Char.isDigit with
  | [] => (Text.natural? 10 whole).map (·, 0)
  | '.' :: fraction => (Text.natural? 10 (whole ++ fraction)).map (·, fraction.length)
  | _ => none

/-- The power of ten after its mark. -/
def power? : List Char → Option Int
  | '-' :: digits => (Text.natural? 10 digits).map fun n => -(n : Int)
  | '+' :: digits => (Text.natural? 10 digits).map Int.ofNat
  | digits => (Text.natural? 10 digits).map Int.ofNat

def isPowerMark (c : Char) : Bool := c == 'e' || c == 'E'

/-- A finite double without a sign. -/
def finite? (text : List Char) : Option Float :=
  let digits := text.takeWhile fun c => !isPowerMark c
  let power := match text.dropWhile fun c => !isPowerMark c with
    | [] => some 0
    | _ :: power => power? power
  (decimal? digits).bind fun (n, places) => power.bind fun power =>
    let x := Decimal.nearest n (power - places)
    if x.isFinite then some x else none

def isInfinityWord (text : List Char) : Bool :=
  [".inf", ".Inf", ".INF"].contains (String.ofList text)

def isNaNWord (text : List Char) : Bool :=
  [".nan", ".NaN", ".NAN"].contains (String.ofList text)

/-- A double. -/
def float? (text : List Char) : Option Float :=
  if isNaNWord text then some (0 / 0)
  else
    match text with
    | '-' :: rest => if isInfinityWord rest then some (-1 / 0) else (finite? rest).map (-·)
    | '+' :: rest => if isInfinityWord rest then some (1 / 0) else finite? rest
    | rest => if isInfinityWord rest then some (1 / 0) else finite? rest

/-- What a plain scalar stands for. -/
def Scalar.ofPlain (text : List Char) : Scalar :=
  if text.isEmpty || isNullWord text then .null
  else
    match boolWord? text with
    | some value => .bool value
    | none =>
      match (integer? text).bind sized? with
      | some scalar => scalar
      | none =>
        if isPadded text then .text
        else
          match float? text with
          | some value => .float value
          | none => .text

end CiTranslate.Yaml

import CiTranslate.Decimal.Layout
import CiTranslate.Toml.DateTime
import CiTranslate.Toml.Text

/-!
What a TOML scalar stands for. Without quotes, its first characters tell its type: a word
starts with a letter of `true`, `false`, `inf` or `nan`, all others with a sign, a digit or
a point.
-/

namespace CiTranslate.Toml

/-- What a scalar stands for. -/
inductive Scalar where
  | text (value : String)
  | boolean (value : Bool)
  /-- An integer; one of no digits has no value. -/
  | integer (value? : Option Int)
  /-- A double; one beyond the finite doubles has no value. -/
  | float (value? : Option Float)
  | dateTime
  deriving Repr

namespace Scalar

/-- The fault of a text that is nothing but a string that lacks its quotes. -/
def unquoted (text : List Char) : Fault :=
  let quotings := [Quoting.multilineLiteral, .multilineBasic, .literal, .basic]
  match quotings.find? fun quoting => quoting.mark.toList.isSuffixOf text with
  | some quoting => .missingQuote quoting
  | none => .notQuoted

/-- A scalar that has to be one word, after its sign. -/
def ofWord (word : String) (kind : String) (value : Scalar) (whole text : List Char) :
    Except Fault Scalar :=
  if text = word.toList then .ok value
  else if text.contains ' ' then .error (unquoted whole)
  else .error (.invalidWord kind word)

/-- Whether every underscore stands between two digits. -/
def spacesDigits (isDigit : Char → Bool) : Bool → List Char → Bool
  | _, [] => true
  | afterDigit, c :: rest =>
    if c = '_' then
      afterDigit && rest.head?.any isDigit && spacesDigits isDigit false rest
    else spacesDigits isDigit (isDigit c) rest

/-- The text without its underscores, which have to stand between digits. -/
def compact (base : Nat) (text : List Char) : Except Fault (List Char) :=
  if spacesDigits (fun c => (Text.digit? base c).isSome) false text then .ok (text.filter (· != '_'))
  else .error .misplacedUnderscore

/-- A decimal integer with its sign. -/
def integer? : List Char → Option Int
  | '-' :: digits => (Text.natural? 10 digits).map fun n => -(n : Int)
  | '+' :: digits => (Text.natural? 10 digits).map Int.ofNat
  | digits => (Text.natural? 10 digits).map Int.ofNat

def decimal (text : List Char) : Except Fault Scalar :=
  (compact 16 text).map fun digits => .integer (integer? digits)

/-- An integer after the mark of its radix. -/
def radixed (kind : NumberKind) (base : Nat) (whole text : List Char) : Except Fault Scalar :=
  let valid (c : Char) : Bool := c == '_' || (Text.digit? base c).isSome
  if text.contains ' ' then .error (unquoted whole)
  else if text.head? = some '+' ∨ text.head? = some '-' then .error .signAfterRadix
  else if !text.all valid then .error (.invalidNumber kind)
  else (compact 16 text).map fun digits => .integer ((Text.natural? base digits).map Int.ofNat)

/-! ### Doubles -/

/-- Passes over digits and underscores; there has to be a digit. -/
def skipDigits (part : String) (isPadded : Bool) (text : List Char) : Except Fault (List Char) :=
  let run := text.takeWhile fun c => c.isDigit || c == '_'
  let digits := run.filter Char.isDigit
  if digits.isEmpty then .error (.noDigits part)
  else if !isPadded ∧ 1 < digits.length ∧ text.head? = some '0' then .error .leadingZero
  else .ok (text.dropWhile fun c => c.isDigit || c == '_')

/-- Checks the form of a double without its sign. -/
def checkFloat (text : List Char) : Except Fault Unit := do
  let text ← skipDigits "mantissa" false text
  let text ←
    match text with
    | '.' :: rest => skipDigits "fraction" true rest
    | _ => pure text
  let text ←
    match text with
    | 'e' :: '+' :: rest | 'e' :: '-' :: rest | 'E' :: '+' :: rest | 'E' :: '-' :: rest
    | 'e' :: rest | 'E' :: rest => skipDigits "exponent" true rest
    | _ => pure text
  if text.isEmpty then .ok () else .error .afterFloat

/-- The power of ten that is written at the end of a double. -/
def powerOf : List Char → Int
  | 'e' :: rest | 'E' :: rest => (integer? rest).getD 0
  | _ => 0

/-- The double nearest to a decimal of the right form, without its sign. -/
def magnitude (text : List Char) : Float :=
  let whole := text.takeWhile Char.isDigit
  let rest := text.dropWhile Char.isDigit
  match rest with
  | '.' :: rest =>
    let fraction := rest.takeWhile Char.isDigit
    let power := powerOf (rest.dropWhile Char.isDigit)
    Decimal.nearest (Text.decimal (whole ++ fraction)) (power - fraction.length)
  | rest => Decimal.nearest (Text.decimal whole) (powerOf rest)

def floatOf (isNegative : Bool) (text : List Char) : Except Fault Scalar :=
  match checkFloat text with
  | .error fault => .error fault
  | .ok () =>
    (compact 10 text).map fun text =>
      let x := magnitude text
      if x.isInf then .float none else .float (some (if isNegative then -x else x))

/-! ### Scalars without quotes -/

/-- A date, a time or a number, by what follows its first digits. The sign is part of
`whole` only. -/
def ofDigits (isNegative : Bool) (whole text : List Char) : Except Fault Scalar :=
  let padded := text.head? == some '0'
  match text.dropWhile Char.isDigit with
  | [] => if padded then .error .leadingZero else decimal whole
  | c :: rest =>
    if c = '-' ∨ c = ':' then (DateTime.check whole).map fun _ => .dateTime
    else if rest.contains ' ' ∨ c = ' ' then .error (unquoted whole)
    else if (c :: rest).any (['.', 'e', 'E'].contains ·) then floatOf isNegative text
    else if c = '_' then if padded then .error .leadingZero else decimal whole
    else .error (unquoted whole)

/-- A scalar that starts with a zero. -/
def ofZero (isSigned isNegative : Bool) (whole text : List Char) : Except Fault Scalar :=
  let withRadix (kind : NumberKind) (base : Nat) (isCapital : Bool) (mark : Char)
      (rest : List Char) : Except Fault Scalar :=
    if isSigned then .error .signedRadix
    else if isCapital then .error (.capitalRadix mark)
    else radixed kind base whole rest
  match text.drop 1 with
  | [] => decimal whole
  | 'x' :: rest => withRadix .hexadecimal 16 false 'x' rest
  | 'X' :: rest => withRadix .hexadecimal 16 true 'x' rest
  | 'o' :: rest => withRadix .octal 8 false 'o' rest
  | 'O' :: rest => withRadix .octal 8 true 'o' rest
  | 'b' :: rest => withRadix .binary 2 false 'b' rest
  | 'B' :: rest => withRadix .binary 2 true 'b' rest
  | 'd' :: _ | 'D' :: _ => .error (if isSigned then .signedRadix else .decimalRadix)
  | _ => ofDigits isNegative whole text

def infinity (isNegative : Bool) : Scalar :=
  .float (some (if isNegative then -(1 / 0) else 1 / 0))

/-- What follows a sign. -/
def ofSigned (isNegative : Bool) (whole text : List Char) : Except Fault Scalar :=
  match text with
  | [] => .error (unquoted whole)
  | '+' :: _ | '-' :: _ => .error .secondSign
  | '0' :: _ => ofZero true isNegative whole text
  | '.' :: _ => .error (.noDigits "mantissa")
  | 'i' :: _ | 'I' :: _ => ofWord "inf" "float" (infinity isNegative) whole text
  | 'n' :: _ | 'N' :: _ => ofWord "nan" "float" (.float (some (0 / 0))) whole text
  | c :: _ =>
    if c.isDigit ∨ c = '_' then ofDigits isNegative whole text else .error (unquoted whole)

/-- A scalar without quotes. -/
def ofBare (text : List Char) : Except Fault Scalar :=
  match text with
  | [] => .error .notQuoted
  | '+' :: rest => ofSigned false text rest
  | '-' :: rest => ofSigned true text rest
  | '0' :: _ => ofZero false false text text
  | '.' :: _ => .error (.noDigits "mantissa")
  | 't' :: _ | 'T' :: _ => ofWord "true" "boolean" (.boolean true) text text
  | 'f' :: _ | 'F' :: _ => ofWord "false" "boolean" (.boolean false) text text
  | 'i' :: _ | 'I' :: _ => ofWord "inf" "float" (infinity false) text text
  | 'n' :: _ | 'N' :: _ => ofWord "nan" "float" (.float (some (0 / 0))) text text
  | c :: _ => if c.isDigit ∨ c = '_' then ofDigits false text text else .error (unquoted text)

end Scalar

/-- What a scalar stands for. -/
def Word.decode (word : Word) : Except Fault Scalar :=
  match word.quoting with
  | some quoting => (decodeQuoted quoting word.text).map .text
  | none => Scalar.ofBare word.text

end CiTranslate.Toml

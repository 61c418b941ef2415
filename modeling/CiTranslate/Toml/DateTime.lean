import CiTranslate.Text.Digits
import CiTranslate.Toml.Fault

/-!
Dates and times in TOML texts: a date, a time, or both with an optional offset. Only their
form and their ranges are checked.
-/

namespace CiTranslate.Toml.DateTime

/-- What a date or time is made of: runs of digits, and the marks between them. -/
inductive Piece where
  | digits (text : List Char)
  | mark (c : Char)
  deriving DecidableEq, Repr

/-- The pieces of a text of at most the given length. -/
def piecesFrom : Nat → List Char → List Piece
  | 0, _ => []
  | _ + 1, [] => []
  | length + 1, c :: text =>
    if c.isDigit then
      .digits (c :: text.takeWhile Char.isDigit) ::
        piecesFrom length (text.dropWhile Char.isDigit)
    else .mark c :: piecesFrom length text

def pieces (text : List Char) : List Piece := piecesFrom text.length text

/-- A check of the pieces that are left. -/
abbrev Check := StateT (List Piece) (Except Fault)

/-- Takes a run of digits. -/
def takeDigits (part expected : String) : Check (List Char)
  | .digits text :: rest => .ok (text, rest)
  | _ => .error (.dateTime part (some expected))

/-- Passes over a mark. -/
def takeMark (part : String) (mark : Char) (expected : String) : Check Unit
  | .mark c :: rest =>
    if c = mark then .ok ((), rest) else .error (.dateTime part (some expected))
  | _ => .error (.dateTime part (some expected))

/-- Passes over a mark that may be absent, and tells whether it was there. -/
def takeOptionalMark (marks : List Char) : Check Bool
  | .mark c :: rest => .ok (if marks.contains c then (true, rest) else (false, .mark c :: rest))
  | rest => .ok (false, rest)

def require (holds : Bool) (part expected : String) : Check Unit := fun rest =>
  if holds then .ok ((), rest) else .error (.dateTime part (some expected))

/-- Whether nothing is left. -/
def isAtEnd : Check Bool := fun rest => .ok (rest.isEmpty, rest)

def isLeapYear (year : Nat) : Bool := year % 4 == 0 && (year % 100 != 0 || year % 400 == 0)

def daysIn (year month : Nat) : Nat :=
  if month = 2 then if isLeapYear year then 29 else 28
  else if [4, 6, 9, 11].contains month then 30
  else 31

/-- A date. -/
def date : Check Unit := do
  let year ← takeDigits "datetime" "year or hour"
  takeMark "datetime" '-' "`-` (YYYY-MM) or `:` (HH:MM)"
  let month ← takeDigits "date" "month"
  takeMark "date" '-' "`-` (MM-DD)"
  let day ← takeDigits "date" "day"
  require (year.length == 4) "date" "a four-digit year (YYYY)"
  require (month.length == 2) "date" "a two-digit month (MM)"
  require (day.length == 2) "date" "a two-digit day (DD)"
  require (1 ≤ Text.decimal month && Text.decimal month ≤ 12) "date" "month between 01 and 12"
  let days := daysIn (Text.decimal year) (Text.decimal month)
  require (1 ≤ Text.decimal day && Text.decimal day ≤ days) "date" s!"day between 01 and {days}"

/-- The seconds of a time and their fraction, which may both be absent. -/
def seconds : Check (Option (List Char)) := do
  if !(← takeOptionalMark [':']) then return none
  let second ← takeDigits "time" "second"
  if ← takeOptionalMark ['.'] then
    let _ ← takeDigits "time" "nanosecond"
  return some second

def time : Check Unit := do
  let hour ← takeDigits "time" "hour"
  takeMark "time" ':' "`:` (HH:MM)"
  let minute ← takeDigits "time" "minute"
  let second? ← seconds
  require (hour.length == 2) "time" "a two-digit hour (HH)"
  require (minute.length == 2) "time" "a two-digit minute (MM)"
  require (second?.all (·.length == 2)) "time" "a two-digit second (SS)"
  require (Text.decimal hour ≤ 23) "time" "hour between 00 and 23"
  require (Text.decimal minute ≤ 59) "time" "minute between 00 and 59"
  require (second?.all (Text.decimal · ≤ 60)) "time" "second between 00 and 60"

/-- The offset from universal time that may follow a date with a time. -/
def offset : Check Unit := do
  if ← isAtEnd then return
  if ← takeOptionalMark ['Z', 'z'] then return
  require (← takeOptionalMark ['+', '-']) "offset" "`Z`, +OFFSET, -OFFSET"
  let hours ← takeDigits "offset" "hour"
  takeMark "offset" ':' "`:` (HH:MM)"
  let minutes ← takeDigits "offset" "minute"
  require (hours.length == 2) "offset" "a two-digit hour (HH)"
  require (minutes.length == 2) "offset" "a two-digit minute (MM)"
  require (Text.decimal hours ≤ 23) "offset" "hours between 00 and 23"
  require (Text.decimal minutes ≤ 59) "offset" "minutes between 00 and 59"

/-- A date, or a date with a time. -/
def dateAndTime : Check Unit := do
  date
  if ← isAtEnd then return
  require (← takeOptionalMark ['T', 't', ' ']) "date-time" "`T` between date and time"
  time
  offset

/-- Checks a date, a time, or both. A time is told by the colon after its first digits. -/
def check (text : List Char) : Except Fault Unit :=
  let checked :=
    match pieces text with
    | .digits hour :: .mark ':' :: rest => time (.digits hour :: .mark ':' :: rest)
    | pieces => dateAndTime pieces
  match checked with
  | .error fault => .error fault
  | .ok ((), []) => .ok ()
  | .ok ((), _) => .error (.dateTime "datetime" none)

end CiTranslate.Toml.DateTime

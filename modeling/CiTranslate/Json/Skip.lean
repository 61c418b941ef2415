import CiTranslate.Json.Reader

/-!
Passing over a JSON value that nobody asked for. The value is checked, but nothing is
built: the only memory is the stack of the brackets that are open, so that the depth is
not limited, and a trailing comma is met as a missing value.
-/

namespace CiTranslate.Json

/-- The two kinds of brackets. -/
inductive Bracket where
  | list
  | record
  deriving DecidableEq, Repr

def Bracket.closing : Bracket → Char
  | .list => ']'
  | .record => '\x7d'

def Bracket.atEnd : Bracket → Problem
  | .list => .endOfList
  | .record => .endOfObject

def Bracket.unclosed : Bracket → Problem
  | .list => .expectedListEnd
  | .record => .expectedObjectEnd

def skipDigits (text : List Char) : List Char := text.dropWhile Char.isDigit

/-- Passes over a power of ten after its mark. -/
def skipPower (text : List Char) : Except Fault (List Char) :=
  let text := match text with
    | '+' :: rest => rest
    | '-' :: rest => rest
    | _ => text
  match text with
  | [] => .error (faultAt .invalidNumber [])
  | c :: rest =>
    if c.isDigit then .ok (skipDigits rest) else .error (faultOn .invalidNumber (c :: rest))

/-- Passes over what may follow the integer digits of a number. -/
def skipTail : List Char → Except Fault (List Char)
  | '.' :: rest =>
    let more := skipDigits rest
    if more.length = rest.length then .error (faultOn .invalidNumber rest)
    else match more with
      | 'e' :: rest => skipPower rest
      | 'E' :: rest => skipPower rest
      | rest => .ok rest
  | 'e' :: rest => skipPower rest
  | 'E' :: rest => skipPower rest
  | rest => .ok rest

/-- Passes over a number whose sign is read. -/
def skipNumber : List Char → Except Fault (List Char)
  | [] => .error (faultAt .invalidNumber [])
  | c :: text =>
    if c = '0' then
      match text with
      | d :: _ => if d.isDigit then .error (faultOn .invalidNumber text) else skipTail text
      | [] => .ok []
    else if c.isDigit then skipTail (skipDigits text)
    else .error (faultOn .invalidNumber (c :: text))

/-- Passes over a value that is neither list nor record. -/
def skipScalar (text : List Char) : Except Fault (List Char) :=
  match text with
  | [] => .error (faultOn .endOfValue [])
  | c :: rest =>
    match c with
    | 'n' => readWord ['u', 'l', 'l'] rest
    | 't' => readWord ['r', 'u', 'e'] rest
    | 'f' => readWord ['a', 'l', 's', 'e'] rest
    | '-' => skipNumber rest
    | '"' => skipText rest
    | c => if c.isDigit then skipNumber text else .error (faultOn .expectedValue text)

/-- Passes over a key and its colon. -/
def skipKey (text : List Char) : Except Fault (List Char) :=
  match skipSpaces text with
  | [] => .error (faultOn .endOfObject [])
  | '"' :: rest => (skipText rest).bind readColon
  | rest => .error (faultOn .keyNotString rest)

def skipKeyOf (bracket : Bracket) (text : List Char) : Except Fault (List Char) :=
  match bracket with
  | .list => .ok text
  | .record => skipKey text

mutual

/-- Passes over a value inside the open brackets, innermost first, and all that follows in
them. -/
def skipFrom : Nat → List Bracket → List Char → Except Fault (List Char)
  | 0, _, text => .error (faultOn .endOfValue text)
  | steps + 1, open_, text =>
    match skipSpaces text with
    | '[' :: rest => skipOpened steps .list open_ rest
    | '\x7b' :: rest => skipOpened steps .record open_ rest
    | text =>
      match skipScalar text with
      | .error fault => .error fault
      | .ok rest => skipAfter steps open_ rest

/-- Goes on after an opening bracket. -/
def skipOpened : Nat → Bracket → List Bracket → List Char → Except Fault (List Char)
  | 0, _, _, text => .error (faultOn .endOfValue text)
  | steps + 1, bracket, open_, text =>
    match skipSpaces text with
    | [] => .error (faultOn bracket.atEnd [])
    | c :: rest =>
      if c = bracket.closing then skipAfter steps open_ rest
      else
        match skipKeyOf bracket (c :: rest) with
        | .error fault => .error fault
        | .ok rest => skipFrom steps (bracket :: open_) rest

/-- Goes on after a value. -/
def skipAfter : Nat → List Bracket → List Char → Except Fault (List Char)
  | 0, _, text => .error (faultOn .endOfValue text)
  | _ + 1, [], text => .ok text
  | steps + 1, bracket :: open_, text =>
    match skipSpaces text with
    | [] => .error (faultOn bracket.atEnd [])
    | c :: rest =>
      if c = ',' then
        match skipKeyOf bracket rest with
        | .error fault => .error fault
        | .ok rest => skipFrom steps (bracket :: open_) rest
      else if c = bracket.closing then skipAfter steps open_ rest
      else .error (faultOn bracket.unclosed (c :: rest))

end

/-- Passes over one value. -/
def skipValue (text : List Char) : Except Fault (List Char) :=
  skipFrom (3 * text.length + 3) [] text

end CiTranslate.Json

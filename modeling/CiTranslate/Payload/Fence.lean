import CiTranslate.Text.AnyCase
import CiTranslate.Text.Search

/-!
Fenced blocks of Markdown: text between two marks of three backticks, the first of which
ends its line, perhaps after the name of a language.
-/

namespace CiTranslate.Payload

def backtick : Char := Char.ofNat 0x60

def fence : List Char := [backtick, backtick, backtick]

/-- The languages that a fence may name. -/
def fenceLanguages : List (List Char) :=
  ["yaml".toList, "yml".toList, "json".toList, "groovy".toList]

/-- The text after a line end, which blanks may stand before. -/
def afterLineEnd? (text : List Char) : Option (List Char) :=
  match text.dropWhile fun c => c == ' ' || c == '\t' with
  | '\n' :: rest => some rest
  | '\r' :: '\n' :: rest => some rest
  | _ => none

/-- The text after an opening fence that a text starts with. -/
def afterFence? (text : List Char) : Option (List Char) :=
  (Text.dropPrefix? fence text).bind fun rest =>
    match (fenceLanguages.findSome? (Text.afterWord? · rest)).bind afterLineEnd? with
    | some body => some body
    | none => afterLineEnd? rest

/-- The text up to the next fence, if there is one. -/
def untilFence? : List Char → Option (List Char)
  | [] => none
  | c :: text => if fence.isPrefixOf (c :: text) then some [] else (untilFence? text).map (c :: ·)

/-- The body of the first fenced block. -/
def fenced? : List Char → Option (List Char)
  | [] => none
  | c :: text =>
    match (afterFence? (c :: text)).bind untilFence? with
    | some body => some body
    | none => fenced? text

end CiTranslate.Payload

/-!
Occurrences of a word in a text.
-/

namespace CiTranslate.Text

/-- Whether the word occurs somewhere in the text. -/
def contains (word : List Char) : List Char → Bool
  | [] => word.isEmpty
  | c :: text => word.isPrefixOf (c :: text) || contains word text

/-- Removes the occurrences of a non-empty word from left to right; the next `skip`
characters belong to an occurrence already met. -/
def removeFrom (word : List Char) (skip : Nat) : List Char → List Char
  | [] => []
  | c :: text =>
    match skip with
    | skip + 1 => removeFrom word skip text
    | 0 =>
      if word.isPrefixOf (c :: text) then removeFrom word (word.length - 1) text
      else c :: removeFrom word 0 text

/-- The text without the occurrences of the word; an occurrence ends before the next begins. -/
def remove (word text : List Char) : List Char := removeFrom word 0 text

/-- The text after a word that it starts with. -/
def dropPrefix? : List Char → List Char → Option (List Char)
  | [], text => some text
  | _ :: _, [] => none
  | w :: word, c :: text => if w == c then dropPrefix? word text else none

end CiTranslate.Text

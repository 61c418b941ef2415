/-!
Words in any case. Besides the two cases of ASCII letters, the long s counts as an s and
the Kelvin sign as a k.
-/

namespace CiTranslate.Text

/-- Whether a character is the letter, given in lower case, in some case. -/
def isLetter (letter c : Char) : Bool :=
  c.toLower == letter || (letter == 's' && c.toNat == 0x17f) ||
    (letter == 'k' && c.toNat == 0x212a)

/-- The text after a word, given in lower case, that it starts with in any case. -/
def afterWord? : List Char → List Char → Option (List Char)
  | [], text => some text
  | _ :: _, [] => none
  | letter :: word, c :: text => if isLetter letter c then afterWord? word text else none

end CiTranslate.Text

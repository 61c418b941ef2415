/-!
The pattern that finds literals.

A pattern can match up to several places of a text, as it has choices, and repeats parts more or
less often. Its matches are listed in the order in which they are tried, and the first one counts.
-/

namespace CiTranslate.Groovy

/-! ### Patterns -/

inductive Pattern where
  | one (accepts : Char → Bool)
  | seq (first second : Pattern)
  | either (first second : Pattern)
  | many (greedy : Bool) (part : Pattern)

namespace Pattern

/-- What is left of a text after repetitions of a part, each of which takes something. When greedy,
more repetitions are tried before less. -/
def repeated (greedy : Bool) (part : List Char → List (List Char)) (text : List Char) :
    List (List Char) :=
  let more := (part text).flatMap fun rest =>
    if _shorter : rest.length < text.length then repeated greedy part rest else []
  if greedy then more ++ [text] else text :: more
termination_by text.length

/-- What is left of a text after each match, in the order in which the matches are tried. -/
def rests : Pattern → List Char → List (List Char)
  | .one _, [] => []
  | .one accepts, c :: text => if accepts c then [text] else []
  | .seq first second, text => (first.rests text).flatMap second.rests
  | .either first second, text => first.rests text ++ second.rests text
  | .many greedy part, text => repeated greedy part.rests text

/-- What is left of a text after the match that counts. -/
def rest? (pattern : Pattern) (text : List Char) : Option (List Char) := (pattern.rests text).head?

/-- A character that is given. -/
def char (c : Char) : Pattern := .one (· == c)

end Pattern

/-! ### Literals -/

/-- A character, or a backslash with the character that it takes along. -/
def signPattern (plain escaped : Char → Bool) : Pattern :=
  (Pattern.one plain).either ((Pattern.char '\\').seq (.one escaped))

/-- What stands in a literal on one line. -/
def lineSign (quote : Char) : Pattern :=
  signPattern (fun c => c != quote && c != '\\' && c != '\n') (· != '\n')

/-- What stands in a literal between three quotes. -/
def blockSign : Pattern := signPattern (· != '\\') fun _ => true

/-- The rest of a literal on one line. -/
def lineRest (quote : Char) : Pattern := (Pattern.many true (lineSign quote)).seq (.char quote)

def linePattern (quote : Char) : Pattern := (Pattern.char quote).seq (lineRest quote)

def triplePattern (quote : Char) : Pattern :=
  (Pattern.char quote).seq ((Pattern.char quote).seq (.char quote))

/-- The rest of a literal between three quotes. -/
def blockRest (quote : Char) : Pattern := (Pattern.many false blockSign).seq (triplePattern quote)

def blockPattern (quote : Char) : Pattern := (triplePattern quote).seq (blockRest quote)

/-- A closed literal. -/
def quotedPattern : Pattern :=
  (blockPattern '\'').either <| (blockPattern '"').either <|
    (linePattern '\'').either (linePattern '"')

end CiTranslate.Groovy

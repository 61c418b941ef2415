import CiTranslate.Groovy.Literal
import CiTranslate.Text.Blank
import CiTranslate.Text.Search

/-!
Clean scripts: without comments, debug output, placeholders and blank lines. String
literals are kept as they are.

A script is a sequence of passages: literals, comments, debug calls, and single characters
of code. Which passage starts at a place depends on the character before it, as the two
slashes of an address and names that only end in a debug name are code.
-/

namespace CiTranslate.Groovy

/-- The length of a comment up to and with its end mark. -/
def commentLength : List Char → Nat
  | [] => 0
  | '*' :: '/' :: _ => 2
  | _ :: text => commentLength text + 1

/-- The length of the rest of a call in which `depth` parentheses are open; the first `skip`
characters belong to a literal. -/
def callLength? : Nat → Nat → List Char → Option Nat
  | _, _, [] => none
  | skip + 1, depth, _ :: text => (callLength? skip depth text).map (· + 1)
  | 0, depth, c :: text =>
    match literalLength? (c :: text) with
    | some length => (callLength? (length - 1) depth text).map (· + 1)
    | none =>
      if c == '(' then (callLength? 0 (depth + 1) text).map (· + 1)
      else if c == ')' then
        if depth ≤ 1 then some 1 else (callLength? 0 (depth - 1) text).map (· + 1)
      else (callLength? 0 depth text).map (· + 1)

/-- Calls that only write debug output. -/
def debugNames : List (List Char) := ["println".toList, "echo".toList]

/-- Whether a name can start after a character. -/
def startsName : Option Char → Bool
  | none => true
  | some c => !(c.isAlphanum || c == '_' || c == '.')

/-- The length of the debug call that a text starts with. -/
def debugLength? (previous : Option Char) (text : List Char) : Option Nat :=
  if !startsName previous then none
  else
    (debugNames.find? (·.isPrefixOf text)).bind fun name =>
      let rest := text.drop name.length
      match Text.trimStart rest with
      | '(' :: arguments =>
        (callLength? 0 1 arguments).map (· + (text.length - arguments.length))
      | _ => none

/-- The length of the comment or debug call that a text starts with. -/
def noiseLength? (previous : Option Char) (text : List Char) : Option Nat :=
  match text with
  | '/' :: '*' :: rest => some (commentLength rest + 2)
  | '/' :: '/' :: rest =>
    if previous == some ':' then none else some ((rest.takeWhile (· != '\n')).length + 2)
  | _ => debugLength? previous text

/-- Whether the passage that a text starts with is kept, and its length. -/
def passage (previous : Option Char) (text : List Char) : Bool × Nat :=
  match literalLength? text with
  | some length => (true, length)
  | none =>
    match noiseLength? previous text with
    | some length => (false, length)
    | none => (true, 1)

/-- The script without noise. The next `left` characters belong to a passage that is kept or
not. -/
def withoutNoiseFrom (previous : Option Char) (kept : Bool) : Nat → List Char → List Char
  | _, [] => []
  | left + 1, c :: text =>
    if kept then c :: withoutNoiseFrom (some c) kept left text
    else withoutNoiseFrom (some c) kept left text
  | 0, c :: text =>
    let (kept, length) := passage previous (c :: text)
    if kept then c :: withoutNoiseFrom (some c) kept (length - 1) text
    else withoutNoiseFrom (some c) kept (length - 1) text

/-- The script without comments and debug calls. -/
def withoutNoise (script : List Char) : List Char := withoutNoiseFrom none true 0 script

/-- Words that generators of scripts leave behind. -/
def placeholders : List (List Char) :=
  ["AWS-GetAtt-Placeholder".toList, "AWS-Sub-Placeholder".toList]

def withoutPlaceholders (script : List Char) : List Char :=
  placeholders.foldl (fun script word => Text.remove word script) script

/-- The lines that are not blank, without blanks at their ends. -/
def tidyLines (text : List Char) : List Char :=
  Text.joinLines (((Text.lines text).map Text.trimEnd).filter fun line => !Text.isBlankText line)

/-- The clean script. -/
def clean (script : List Char) : List Char :=
  tidyLines (withoutPlaceholders (withoutNoise script))

/-- Whether a script is a declarative pipeline, a block named `pipeline`. -/
def isPipeline (script : List Char) : Bool :=
  match Text.dropPrefix? "pipeline".toList (Text.trimStart script) with
  | some rest => (Text.trimStart rest).head? == some '\x7b'
  | none => false

end CiTranslate.Groovy

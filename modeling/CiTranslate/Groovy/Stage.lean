import CiTranslate.Groovy.Literal
import CiTranslate.Pipeline
import CiTranslate.Text.Blank
import CiTranslate.Text.Search
import CiTranslate.Text.Word

/-!
Stages and shell steps of scripts, found by their form: `stage('name')`, and `sh` with a
literal, optionally in parentheses, named `script`, or followed by a `label`.

A shell step belongs to the last stage declared before it.
-/

namespace CiTranslate.Groovy

/-! ### Shell steps -/

/-- The literal that a text starts with, and the text after it. -/
def takeQuoted? (text : List Char) : Option (List Char × List Char) :=
  (quotedLength? text).map fun length => (text.take length, text.drop length)

/-- The text after a word, a colon and blanks around the colon. -/
def afterLabel? (word : List Char) (text : List Char) : Option (List Char) :=
  (Text.dropPrefix? word text).bind fun rest =>
    match Text.trimStart rest with
    | ':' :: rest => some (Text.trimStart rest)
    | _ => none

/-- The label after a command, and the text after it. -/
def takeLabel? (text : List Char) : Option (List Char × List Char) :=
  match Text.trimStart text with
  | ',' :: rest => (afterLabel? "label".toList (Text.trimStart rest)).bind takeQuoted?
  | _ => none

/-- Passes an opening parenthesis and the blanks around it. -/
def openCall (text : List Char) : List Char :=
  match Text.trimStart text with
  | '(' :: rest => Text.trimStart rest
  | rest => rest

def stepOf (command : List Char) (label : Option (List Char)) : Step :=
  let command := String.ofList (unquote command)
  match label with
  | some label => .namedScript (String.ofList (unquote label)) command
  | none => .script command

/-- The shell step that a text starts with, and the text after it. -/
def takeShellStep? (previous : Option Char) (text : List Char) : Option (Step × List Char) :=
  if previous.any Text.isWord then none
  else
    match text with
    | 's' :: 'h' :: rest =>
      if !Text.endsWord rest then none
      else
        let rest := openCall rest
        let rest := (afterLabel? "script".toList rest).getD rest
        (takeQuoted? rest).map fun (command, rest) =>
          match takeLabel? rest with
          | some (label, rest) => (stepOf command (some label), rest)
          | none => (stepOf command none, rest)
    | _ => none

/-- The shell steps of a text whose first `skip` characters belong to a step already met. -/
def shellStepsFrom (previous : Option Char) : Nat → List Char → List Step
  | _, [] => []
  | skip + 1, c :: text => shellStepsFrom (some c) skip text
  | 0, c :: text =>
    match takeShellStep? previous (c :: text) with
    | some (step, rest) => step :: shellStepsFrom (some c) (text.length - rest.length) text
    | none => shellStepsFrom (some c) 0 text

/-- The shell steps of a text. -/
def shellSteps (text : List Char) : List Step := shellStepsFrom none 0 text

/-! ### Stages -/

/-- The name of the stage that a text declares at its start, and the text after the
declaration. -/
def takeStage? (text : List Char) : Option (List Char × List Char) :=
  (Text.dropPrefix? "stage".toList text).bind fun rest =>
    match Text.trimStart rest with
    | '(' :: rest =>
      match Text.trimStart rest with
      | c :: rest =>
        let name := rest.takeWhile fun c => !isQuote c
        if !isQuote c || name.isEmpty then none
        else
          match rest.dropWhile fun c => !isQuote c with
          | _ :: rest =>
            match Text.trimStart rest with
            | ')' :: rest => some (name, rest)
            | _ => none
          | [] => none
      | [] => none
    | _ => none

/-- The text before the first stage, and the name of each stage with the text up to the
next one. The first `skip` characters belong to a declaration already met. -/
def sections : Nat → List Char → List Char × List (List Char × List Char)
  | _, [] => ([], [])
  | skip + 1, _ :: text => sections skip text
  | 0, c :: text =>
    match takeStage? (c :: text) with
    | some (name, rest) =>
      let (body, later) := sections (text.length - rest.length) text
      ([], (name, body) :: later)
    | none =>
      let (body, later) := sections 0 text
      (c :: body, later)

/-- A stage of a script with the shell steps up to the next stage. -/
structure ScriptStage where
  name : String
  steps : List Step
  deriving DecidableEq, Repr

/-- The stages of a script. -/
def stages (script : List Char) : List ScriptStage :=
  (sections 0 script).2.map fun (name, body) => ⟨String.ofList name, shellSteps body⟩

end CiTranslate.Groovy

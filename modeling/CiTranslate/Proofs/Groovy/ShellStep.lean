import CiTranslate.Groovy.Stage
import CiTranslate.Proofs.Groovy.Literal

/-!
Shell steps that were written are read back.

A step is read from its call with the text and the name that were written
(`shellStepsFrom_call`, `shellStepsFrom_namedCall`); the code between two calls holds no step
(`shellStepsFrom_quiet`).
-/

namespace CiTranslate.Groovy

/-! ### Text without steps -/

/-- Whether no shell step begins in a text, whatever follows it. -/
def isQuiet : List Char → Bool
  | [] => true
  | [c] => c != 's'
  | c :: d :: text => !(c == 's' && d == 'h') && isQuiet (d :: text)

theorem takeShellStep?_of_ne {c d : Char} (other : ¬(c = 's' ∧ d = 'h')) (previous : Option Char)
    (text : List Char) : takeShellStep? previous (c :: d :: text) = none := by
  unfold takeShellStep?
  split
  · rfl
  · split
    · next same =>
      obtain ⟨rfl, tail⟩ := List.cons.inj same
      exact absurd ⟨rfl, (List.cons.inj tail).1⟩ other
    · rfl

theorem takeShellStep?_singleton (previous : Option Char) (c : Char) :
    takeShellStep? previous [c] = none := by
  unfold takeShellStep?
  split
  · rfl
  · split
    · next same => exact absurd (List.cons.inj same).2 nofun
    · rfl

theorem isQuiet_of_cons {c : Char} {text : List Char} (quiet : isQuiet (c :: text) = true) :
    isQuiet text = true := by
  cases text with
  | nil => rfl
  | cons d text => exact (Bool.and_eq_true_iff.mp quiet).2

theorem takeShellStep?_of_isQuiet {c : Char} {text : List Char}
    (quiet : isQuiet (c :: text) = true) (previous : Option Char) (rest : List Char) :
    takeShellStep? previous (c :: (text ++ rest)) = none := by
  cases text with
  | nil =>
    have other : c ≠ 's' := by simpa [isQuiet] using quiet
    cases rest with
    | nil => exact takeShellStep?_singleton previous c
    | cons d rest => exact takeShellStep?_of_ne (fun same => other same.1) previous rest
  | cons d text =>
    have other : ¬(c = 's' ∧ d = 'h') := by
      rintro ⟨rfl, rfl⟩
      exact nomatch (Bool.and_eq_true_iff.mp quiet).1
    exact takeShellStep?_of_ne other previous (text ++ rest)

/-- Quiet text holds no steps. -/
theorem shellStepsFrom_quiet {text : List Char} (quiet : isQuiet text = true)
    (previous : Option Char) (rest : List Char) :
    shellStepsFrom previous 0 (text ++ rest) =
      shellStepsFrom (text.getLast?.or previous) 0 rest := by
  induction text generalizing previous with
  | nil => rfl
  | cons c text ih =>
    rw [List.cons_append, shellStepsFrom, takeShellStep?_of_isQuiet quiet, Text.getLast?_cons_or]
    exact ih (isQuiet_of_cons quiet) (some c)

/-! ### Text of a step -/

theorem shellStepsFrom_skip (previous : Option Char) (passed rest : List Char) :
    shellStepsFrom previous passed.length (passed ++ rest) =
      shellStepsFrom (passed.getLast?.or previous) 0 rest := by
  induction passed generalizing previous with
  | nil => rfl
  | cons c passed ih =>
    rw [List.length_cons, List.cons_append, shellStepsFrom, Text.getLast?_cons_or]
    exact ih (some c)

theorem shellStepsFrom_of_taken {previous : Option Char} {part rest : List Char} {step : Step}
    (nonempty : part ≠ []) (taken : takeShellStep? previous (part ++ rest) = some (step, rest)) :
    shellStepsFrom previous 0 (part ++ rest) =
      step :: shellStepsFrom (part.getLast?.or previous) 0 rest := by
  cases part with
  | nil => exact absurd rfl nonempty
  | cons c part =>
    have length : (part ++ rest).length - rest.length = part.length := by
      rw [List.length_append, Nat.add_sub_cancel]
    rw [List.cons_append] at taken ⊢
    rw [shellStepsFrom, taken, Text.getLast?_cons_or]
    simp only [length, shellStepsFrom_skip]

/-! ### Parts of a call -/

theorem takeQuoted?_quote (text : List Char) {rest : List Char} (next : rest.head? ≠ some '\'') :
    takeQuoted? (quote text ++ rest) = some (quote text, rest) := by
  rw [takeQuoted?, quotedLength?_quote text next, Option.map_some, List.take_left, List.drop_left]

theorem trimStart_quote (text rest : List Char) :
    Text.trimStart (quote text ++ rest) = quote text ++ rest := by
  obtain ⟨marks, shape⟩ := exists_quote_eq_cons text
  rw [shape, List.cons_append, Text.trimStart_cons_of_not_blank (by decide)]

theorem takeLabel?_of_ne {rest : List Char} (last : (Text.trimStart rest).head? ≠ some ',') :
    takeLabel? rest = none := by
  unfold takeLabel?
  split
  · next same =>
    rw [same] at last
    exact absurd rfl last
  · rfl

theorem openCall_of_ne {text : List Char} (other : (Text.trimStart text).head? ≠ some '(') :
    openCall text = Text.trimStart text := by
  unfold openCall
  split
  · next same =>
    rw [same] at other
    exact absurd rfl other
  · rfl

/-! ### Calls -/

/-- The call that runs a command. -/
def call (command : List Char) : List Char := 's' :: 'h' :: ' ' :: quote command

/-- The call that runs a command under a name. -/
def namedCall (command name : List Char) : List Char :=
  ['s', 'h', '(', 's', 'c', 'r', 'i', 'p', 't', ':', ' '] ++ quote command ++
    [',', ' ', 'l', 'a', 'b', 'e', 'l', ':', ' '] ++ quote name ++ [')']

theorem shellStepsFrom_call {previous : Option Char} (free : previous.any Text.isWord = false)
    (command : List Char) {rest : List Char} (next : rest.head? ≠ some '\'')
    (last : (Text.trimStart rest).head? ≠ some ',') :
    shellStepsFrom previous 0 (call command ++ rest) =
      .script (String.ofList command) :: shellStepsFrom (some '\'') 0 rest := by
  have trimmed : Text.trimStart (' ' :: (quote command ++ rest)) = quote command ++ rest :=
    (Text.trimStart_cons_of_blank rfl _).trans (trimStart_quote command rest)
  obtain ⟨marks, shape⟩ := exists_quote_eq_cons command
  have opened : openCall (' ' :: (quote command ++ rest)) = quote command ++ rest := by
    rw [openCall_of_ne, trimmed]
    rw [trimmed, shape]
    simp
  have unlabelled : afterLabel? "script".toList (quote command ++ rest) = none := by
    rw [shape]
    rfl
  have taken : takeShellStep? previous (call command ++ rest) =
      some (stepOf (quote command) none, rest) := by
    have ends : Text.endsWord (' ' :: (quote command ++ rest)) = true := rfl
    rw [call, List.cons_append, List.cons_append, List.cons_append, takeShellStep?, free,
      if_neg Bool.false_ne_true, ends]
    simp only [opened, unlabelled, Option.getD_none, takeQuoted?_quote command next,
      takeLabel?_of_ne last, Option.map_some]
    rfl
  have step : stepOf (quote command) none = .script (String.ofList command) := by
    rw [stepOf, unquote_quote]
  have nonempty : call command ≠ [] := List.cons_ne_nil _ _
  have mark : (call command).getLast?.or previous = some '\'' := by
    rw [call, Text.getLast?_cons_or, Text.getLast?_cons_or, Text.getLast?_cons_or, getLast?_quote]
    rfl
  rw [shellStepsFrom_of_taken nonempty taken, step, mark]

/-- A label is taken after a comma and its own name. -/
theorem takeLabel?_quote (name rest : List Char) :
    takeLabel? ([',', ' ', 'l', 'a', 'b', 'e', 'l', ':', ' '] ++ (quote name ++ ')' :: rest)) =
      some (quote name, ')' :: rest) := by
  have found : afterLabel? "label".toList
      (['l', 'a', 'b', 'e', 'l', ':', ' '] ++ (quote name ++ ')' :: rest)) =
        some (quote name ++ ')' :: rest) :=
    congrArg some (trimStart_quote name (')' :: rest))
  have next : (')' :: rest).head? ≠ some '\'' := by simp
  change (afterLabel? "label".toList
    (['l', 'a', 'b', 'e', 'l', ':', ' '] ++ (quote name ++ ')' :: rest))).bind takeQuoted? = _
  rw [found, Option.bind_some, takeQuoted?_quote name next]

theorem shellStepsFrom_namedCall {previous : Option Char} (free : previous.any Text.isWord = false)
    (command name rest : List Char) :
    shellStepsFrom previous 0 (namedCall command name ++ rest) =
      .namedScript (String.ofList name) (String.ofList command) ::
        shellStepsFrom (some ')') 0 rest := by
  obtain ⟨label, hlabel⟩ : ∃ label, label =
      [',', ' ', 'l', 'a', 'b', 'e', 'l', ':', ' '] ++ (quote name ++ ')' :: rest) := ⟨_, rfl⟩
  obtain ⟨part, hpart⟩ : ∃ part, part =
      's' :: 'h' :: '(' :: (['s', 'c', 'r', 'i', 'p', 't', ':', ' '] ++ quote command ++
        [',', ' ', 'l', 'a', 'b', 'e', 'l', ':', ' '] ++ quote name) := ⟨_, rfl⟩
  have arguments : part ++ ')' :: rest =
      's' :: 'h' :: '(' :: (['s', 'c', 'r', 'i', 'p', 't', ':', ' '] ++
        (quote command ++ label)) := by
    simp [hpart, hlabel]
  have whole : namedCall command name ++ rest = part ++ ')' :: rest := by
    simp [namedCall, hpart]
  have opened : openCall ('(' :: (['s', 'c', 'r', 'i', 'p', 't', ':', ' '] ++
      (quote command ++ label))) =
        ['s', 'c', 'r', 'i', 'p', 't', ':', ' '] ++ (quote command ++ label) := rfl
  have argument : afterLabel? "script".toList
      (['s', 'c', 'r', 'i', 'p', 't', ':', ' '] ++ (quote command ++ label)) =
        some (quote command ++ label) :=
    congrArg some (trimStart_quote command label)
  have next : label.head? ≠ some '\'' := by
    rw [hlabel]
    simp
  have labelled : takeLabel? label = some (quote name, ')' :: rest) := by
    rw [hlabel, takeLabel?_quote]
  have taken : takeShellStep? previous (part ++ ')' :: rest) =
      some (stepOf (quote command) (some (quote name)), ')' :: rest) := by
    have ends (text : List Char) : Text.endsWord ('(' :: text) = true := rfl
    rw [arguments, takeShellStep?, free, if_neg Bool.false_ne_true, ends]
    simp only [opened, argument, Option.getD_some, takeQuoted?_quote command next, labelled,
      Option.map_some]
    rfl
  have step : stepOf (quote command) (some (quote name)) =
      .namedScript (String.ofList name) (String.ofList command) := by
    rw [stepOf, unquote_quote, unquote_quote]
  have nonempty : part ≠ [] := by
    rw [hpart]
    exact List.cons_ne_nil _ _
  have closed (before : Option Char) :
      shellStepsFrom before 0 (')' :: rest) = shellStepsFrom (some ')') 0 rest :=
    shellStepsFrom_quiet (show isQuiet [')'] = true from rfl) before rest
  rw [whole, shellStepsFrom_of_taken nonempty taken, step, closed]

/-- **What was quoted is extracted.** A call gives one step back, whatever the command and the name
are: empty, of several lines, or made of quotes, backslashes and calls. -/
theorem shellSteps_quote (command name : String) :
    shellSteps ("sh ".toList ++ quote command.toList) = [.script command] ∧
    shellSteps ("sh(script: ".toList ++ quote command.toList ++ ", label: ".toList ++
      quote name.toList ++ ")".toList) = [.namedScript name command] := by
  have free : Option.any Text.isWord none = false := rfl
  have nothing (previous : Option Char) : shellStepsFrom previous 0 [] = [] := rfl
  constructor
  · have plain : "sh ".toList ++ quote command.toList = call command.toList ++ [] := by
      rw [List.append_nil]
      rfl
    rw [shellSteps, plain, shellStepsFrom_call free command.toList (by simp) (by simp), nothing,
      String.ofList_toList]
  · have named : "sh(script: ".toList ++ quote command.toList ++ ", label: ".toList ++
        quote name.toList ++ ")".toList = namedCall command.toList name.toList ++ [] := by
      rw [List.append_nil]
      rfl
    rw [shellSteps, named, shellStepsFrom_namedCall free, nothing, String.ofList_toList,
      String.ofList_toList]

end CiTranslate.Groovy

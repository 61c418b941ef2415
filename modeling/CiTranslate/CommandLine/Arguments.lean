import CiTranslate.CommandLine.Progress

/-!
What a call of the program asks for.

Some options may stand before the command and after it. The one after it counts, then the
one before it, then the environment.
-/

namespace CiTranslate.CommandLine

/-- A command with its own arguments. Without a file, standard input is read. -/
inductive Command where
  | classify (file? : Option String) (isStrict asJson : Bool)
  | parse (file? : Option String) (tag : String) (encoding : Encoding) (check : Bool)
  | translate (file? : Option String) (source? : Option String) (target : String)
  | formats (asJson : Bool)
  deriving DecidableEq, Repr

structure Arguments where
  command : Command
  level : LogLevel := .warn
  logFormat : LogFormat := .compact
  /-- The configuration file. -/
  config? : Option String := none
  deriving DecidableEq, Repr

namespace Command

/-- The command of a verb. -/
def ofProgress (verb : Verb) (given : Progress) : Command :=
  let file? := given.value? .file
  let source? := given.value? .source
  match verb with
  | .classify => .classify file? (given.has .strict) (given.has .json)
  | .parse =>
    .parse file? (source?.getD "")
      (((given.value? .encoding).bind Encoding.ofName?).getD .json) (given.has .check)
  | .translate => .translate file? source? ((given.value? .target).getD "")
  | .formats => .formats (given.has .json)

end Command

namespace Arguments

/-- The arguments of a command, from what stands before and after it. -/
def ofProgress (verb : Verb) (before after : Progress) (config? : Option String) : Arguments :=
  let value? (parameter : Parameter) : Option String :=
    (after.value? parameter).or (before.value? parameter)
  { command := .ofProgress verb after
    level := ((value? .level).bind LogLevel.ofName?).getD .warn
    logFormat := ((value? .logFormat).bind LogFormat.ofName?).getD .compact
    config? := (value? .config).or config? }

/-- What follows the word that asks for help: at most the name of a command. -/
def helpOn : List String → UsageError
  | [] => .help true none
  | [name] =>
    if name = helpWord then .help true none
    else
      match Verb.ofName? name with
      | some verb => .help true (some verb)
      | none => .invalidSubcommand
  | _ => .invalidSubcommand

/-- What is wrong with a call that has no command. -/
def withoutCommand (given : Progress) (config? : Option String) : UsageError :=
  if given.values.isEmpty ∧ config?.isNone then .nothingGiven else .missingSubcommand

/-- Reads the arguments of a call, with the configuration file that the environment names. -/
def read (config? : Option String) (arguments : List String) : Except UsageError Arguments :=
  match Progress.read .program false {} arguments with
  | .error error => .error error
  | .ok (before, none) =>
    match before.finish .program config? with
    | .error error => .error error
    | .ok before => .error (withoutCommand before config?)
  | .ok (before, some (word, rest)) =>
    match Verb.ofName? word with
    | none => .error (helpOn rest)
    | some verb => do
      let (after, _) ← Progress.read (.ofVerb verb) false {} rest
      let after ← after.finish (.ofVerb verb) config?
      let before ← before.finish .program config?
      return ofProgress verb before after config?

end Arguments

end CiTranslate.CommandLine

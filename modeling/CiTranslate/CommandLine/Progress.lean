import CiTranslate.CommandLine.Grammar

/-!
The arguments of one command, read from left to right.

An option that is followed by its value is checked only when the next option or flag comes,
or the arguments end. What is wrong with the arguments in between is told first.
-/

namespace CiTranslate.CommandLine

/-- What was read of the arguments of a command. -/
structure Progress where
  flags : List Flag := []
  values : List (Parameter × String) := []
  /-- A parameter that is not checked yet, with its value if that was read. -/
  pending? : Option (Parameter × Option String) := none
  isFileNamed : Bool := false
  deriving Repr

namespace Progress

def value? (parameter : Parameter) (progress : Progress) : Option String :=
  (progress.values.find? (·.1 == parameter)).map (·.2)

def has (flag : Flag) (progress : Progress) : Bool := progress.flags.contains flag

/-- Whether the next word is the value of an option. -/
def isWaiting (progress : Progress) : Bool := progress.pending?.any (·.2.isNone)

/-- Gives a parameter a value, unless it has one. -/
def put (parameter : Parameter) (value : String) (progress : Progress) :
    Except UsageError Progress :=
  if (progress.value? parameter).isSome then .error .repeatedArgument
  else if parameter.accepts value then
    .ok { progress with values := progress.values ++ [(parameter, value)] }
  else .error .invalidValue

/-- Checks the parameter that is not checked yet. -/
def settle (progress : Progress) : Except UsageError Progress :=
  match progress.pending? with
  | none => .ok progress
  | some (_, none) => .error .invalidValue
  | some (parameter, some value) => { progress with pending? := none }.put parameter value

/-- Reads an option with its value attached, or without. -/
def option (parameter : Parameter) (value? : Option String) (progress : Progress) :
    Except UsageError Progress :=
  progress.settle.bind fun progress =>
    match value? with
    | some value => progress.put parameter value
    | none => .ok { progress with pending? := some (parameter, none) }

/-- Reads a flag of a command. -/
def flag (grammar : Grammar) (flag : Flag) (progress : Progress) : Except UsageError Progress :=
  progress.settle.bind fun progress =>
    match flag with
    | .help isLong => .error (.help isLong grammar.verb?)
    | .version => .error .version
    | flag =>
      if progress.has flag then .error .repeatedArgument
      else .ok { progress with flags := progress.flags ++ [flag] }

/-- Reads an argument after its two dashes. -/
def long (grammar : Grammar) (text : List Char) (progress : Progress) :
    Except UsageError Progress :=
  let name := String.ofList (text.takeWhile (· != '='))
  let value? :=
    match text.dropWhile (· != '=') with
    | '=' :: value => some (String.ofList value)
    | _ => none
  match grammar.options.lookup name, grammar.flags.lookup name with
  | some parameter, _ => progress.option parameter value?
  | none, some flag => if value?.isSome then .error .tooManyValues else progress.flag grammar flag
  | none, none => .error .unknownArgument

/-- Reads short arguments after their dash. An option takes the rest as its value. -/
def short (grammar : Grammar) : List Char → Progress → Except UsageError Progress
  | [], progress => .ok progress
  | c :: text, progress =>
    match grammar.shortFlags.lookup c, shortOptions.lookup c with
    | some flag, _ => (progress.flag grammar flag).bind (short grammar text)
    | none, some parameter =>
      let value? :=
        match text with
        | [] => none
        | '=' :: value => some (String.ofList value)
        | value => some (String.ofList value)
      progress.option parameter value?
    | none, none => .error .unknownArgument

/-- Reads a word that is no value of an option: the name of a file, if there may be one. -/
def word (grammar : Grammar) (isLiteral : Bool) (text : String) (progress : Progress) :
    Except UsageError Progress :=
  if grammar.takesFile ∧ !progress.isFileNamed then
    progress.settle.map fun progress =>
      { progress with pending? := some (.file, some text), isFileNamed := true }
  else if grammar.commands.isEmpty ∨ (isLiteral ∧ grammar.commands.contains text) then
    .error .unknownArgument
  else .error .invalidSubcommand

/-- Reads an argument that starts no command. -/
def argument (grammar : Grammar) (text : String) (progress : Progress) :
    Except UsageError Progress :=
  match text.toList with
  | '-' :: '-' :: rest => progress.long grammar rest
  | '-' :: c :: rest => progress.short grammar (c :: rest)
  | _ =>
    match progress.pending? with
    | some (parameter, none) => .ok { progress with pending? := some (parameter, some text) }
    | _ => progress.word grammar false text

/-- Reads arguments up to a command, which is given back with the arguments after it. After
two dashes, every argument is a word. -/
def read (grammar : Grammar) : Bool → Progress → List String →
    Except UsageError (Progress × Option (String × List String))
  | _, progress, [] => .ok (progress, none)
  | true, progress, text :: rest =>
    (progress.word grammar true text).bind fun progress => read grammar true progress rest
  | false, progress, text :: rest =>
    if !progress.isWaiting ∧ grammar.commands.contains text then .ok (progress, some (text, rest))
    else if text = "--" then read grammar true progress rest
    else
      (progress.argument grammar text).bind fun progress => read grammar false progress rest

/-- Checks what is left to check at the end, with the configuration file that the
environment names. -/
def finish (grammar : Grammar) (config? : Option String) (progress : Progress) :
    Except UsageError Progress :=
  progress.settle.bind fun progress =>
    if (progress.value? .config).isNone ∧ config? = some "" then .error .invalidValue
    else if grammar.required.any fun parameter => (progress.value? parameter).isNone then
      .error .missingArgument
    else .ok progress

end Progress

end CiTranslate.CommandLine

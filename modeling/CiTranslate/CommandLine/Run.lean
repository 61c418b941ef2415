import CiTranslate.CommandLine.Command
import CiTranslate.CommandLine.Help

/-!
A call of the program, in any surroundings that give access to files and standard input.

The text to work on is read before the configuration where the configuration only settles
how it is classified, and after it where the text is translated.
-/

namespace CiTranslate.CommandLine

/-- What the program can reach. -/
structure Access (m : Type → Type) where
  /-- The content of a file that can be read. -/
  contentOf : String → m (Option ByteArray)
  /-- Whether there is a file of this name. -/
  hasFile : String → m Bool
  readInput : m ByteArray

/-- How a call ends: its exit code, its output, and what it tells of failures. -/
structure Outcome where
  code : Nat
  output : String := ""
  report : String := ""
  deriving DecidableEq, Repr

/-- The configuration file that is used where none is named. -/
def defaultConfig : String := "pipeshift.toml"

/-- Whether a path stands for standard input: a dash, with nothing but the directory itself
behind it. -/
def isInput (path : String) : Bool :=
  match path.splitOn "/" with
  | "-" :: rest => rest.all fun part => part.isEmpty || part == "."
  | _ => false

section

variable {m : Type → Type} [Monad m]

/-- The text of a file. -/
def readFileText (access : Access m) (purpose path : String) : ExceptT Failure m String := do
  match (← access.contentOf path).bind String.fromUTF8? with
  | some text => return text
  | none => throw (.file purpose path)

/-- The text to work on. -/
def readText (access : Access m) (file? : Option String) : ExceptT Failure m String := do
  match file?.filter fun path => !isInput path with
  | some path => readFileText access "read" path
  | none =>
    match String.fromUTF8? (← access.readInput) with
    | some text => return text
    | none => throw .input

def readConfigurationAt (access : Access m) (path : String) :
    ExceptT Failure m Configuration := do
  let text ← readFileText access "read config" path
  match Configuration.read text with
  | .ok configuration => return configuration
  | .error error => throw (.configuration error)

/-- The configuration: of the named file, or of the default one if it is there. -/
def readConfiguration (access : Access m) (config? : Option String) :
    ExceptT Failure m Configuration := do
  match config? with
  | some path => readConfigurationAt access path
  | none =>
    if ← access.hasFile defaultConfig then readConfigurationAt access defaultConfig
    else return {}

/-- What a command prints. -/
def execute (access : Access m) (arguments : Arguments) : ExceptT Failure m String := do
  match arguments.command with
  | .classify file? isStrict asJson =>
    let text ← readText access file?
    let policy ←
      if isStrict then pure Policy.strict
      else Configuration.policy <$> readConfiguration access arguments.config?
    return classify policy asJson text
  | .parse file? tag encoding check =>
    parse tag encoding check (← readText access file?)
  | .translate file? source? target =>
    let configuration ← readConfiguration access arguments.config?
    translate configuration source? target (← readText access file?)
  | .formats asJson => return formats asJson

/-- What a call prints that does not lead to a command. -/
def usageOutcome (config? : Option String) (error : UsageError) : Outcome :=
  let code := error.exitCode
  match error with
  | .help isLong verb? => { code, output := helpText isLong config? verb? }
  | .version => { code, output := versionText }
  | .nothingGiven => { code, report := helpText false config? none }
  | error => { code, report := s!"error: {error.kind}\n" }

/-- Runs the program on the arguments of a call, with the configuration file that the
environment names. -/
def run (access : Access m) (config? : Option String) (arguments : List String) : m Outcome := do
  match Arguments.read config? arguments with
  | .error error => return usageOutcome config? error
  | .ok arguments =>
    match ← execute access arguments with
    | .ok output => return { code := 0, output }
    | .error failure => return { code := 1, report := failure.report }

end

end CiTranslate.CommandLine

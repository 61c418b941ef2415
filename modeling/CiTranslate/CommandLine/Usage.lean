/-!
The commands of the program, and how the arguments of a call can miss what is expected.
-/

namespace CiTranslate.CommandLine

/-- The commands. -/
inductive Verb where
  | classify
  | parse
  | translate
  | formats
  deriving DecidableEq, Repr

namespace Verb

def all : List Verb := [.classify, .parse, .translate, .formats]

def name : Verb → String
  | .classify => "classify"
  | .parse => "parse"
  | .translate => "translate"
  | .formats => "formats"

def ofName? (name : String) : Option Verb := all.find? (·.name == name)

end Verb

/-- Why a call does not lead to a command. -/
inductive UsageError where
  | invalidValue
  | unknownArgument
  | invalidSubcommand
  | missingSubcommand
  | missingArgument
  | tooManyValues
  /-- An option or flag that is given twice. -/
  | repeatedArgument
  /-- A call without any arguments. -/
  | nothingGiven
  /-- Help is asked for, on the program or on a command, in the long or the short form. -/
  | help (isLong : Bool) (verb? : Option Verb)
  | version
  deriving DecidableEq, Repr

namespace UsageError

def kind : UsageError → String
  | .invalidValue => "InvalidValue"
  | .unknownArgument => "UnknownArgument"
  | .invalidSubcommand => "InvalidSubcommand"
  | .missingSubcommand => "MissingSubcommand"
  | .missingArgument => "MissingRequiredArgument"
  | .tooManyValues => "TooManyValues"
  | .repeatedArgument => "ArgumentConflict"
  | .nothingGiven => "DisplayHelpOnMissingArgumentOrSubcommand"
  | .help _ _ => "DisplayHelp"
  | .version => "DisplayVersion"

/-- Only help and the version are what the call asked for. -/
def exitCode : UsageError → Nat
  | .help _ _ => 0
  | .version => 0
  | _ => 2

end UsageError

end CiTranslate.CommandLine

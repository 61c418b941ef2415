import CiTranslate.Text.Lowercase

/-!
How much is logged, and in which form.
-/

namespace CiTranslate.CommandLine

inductive LogLevel where
  | trace
  | debug
  | info
  | warn
  | error
  deriving DecidableEq, Repr, Inhabited

namespace LogLevel

def all : List LogLevel := [.trace, .debug, .info, .warn, .error]

def name : LogLevel → String
  | .trace => "trace"
  | .debug => "debug"
  | .info => "info"
  | .warn => "warn"
  | .error => "error"

def ofName? (name : String) : Option LogLevel := all.find? (·.name == name)

end LogLevel

inductive LogFormat where
  | pretty
  | compact
  | json
  deriving DecidableEq, Repr, Inhabited

namespace LogFormat

def all : List LogFormat := [.pretty, .compact, .json]

def name : LogFormat → String
  | .pretty => "pretty"
  | .compact => "compact"
  | .json => "json"

def ofName? (name : String) : Option LogFormat := all.find? (·.name == name)

/-- The format with a name in any case. -/
def ofText? (text : String) : Option LogFormat :=
  ofName? (String.ofList (Text.lowercase text.toList))

/-- What is said of a text that names no format. -/
def unknownMessage (text : String) : String := s!"Unknown tracing format: {text}"

end LogFormat

end CiTranslate.CommandLine

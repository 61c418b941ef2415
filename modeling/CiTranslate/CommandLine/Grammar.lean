import CiTranslate.CommandLine.Logging
import CiTranslate.CommandLine.Usage

/-!
Which arguments the program and its commands take.
-/

namespace CiTranslate.CommandLine

/-- How a pipeline is printed. -/
inductive Encoding where
  | json
  | yaml
  deriving DecidableEq, Repr, Inhabited

namespace Encoding

def all : List Encoding := [.json, .yaml]

def name : Encoding → String
  | .json => "json"
  | .yaml => "yaml"

def ofName? (name : String) : Option Encoding := all.find? (·.name == name)

end Encoding

/-- What has a value. -/
inductive Parameter where
  | level
  | logFormat
  | config
  | source
  | target
  | encoding
  | file
  deriving DecidableEq, Repr

/-- Whether a parameter takes a value. Paths must not be empty. -/
def Parameter.accepts (value : String) : Parameter → Bool
  | .level => (LogLevel.ofName? value).isSome
  | .logFormat => (LogFormat.ofName? value).isSome
  | .encoding => (Encoding.ofName? value).isSome
  | .config => !value.isEmpty
  | .file => !value.isEmpty
  | .source => true
  | .target => true

/-- What has no value. -/
inductive Flag where
  | strict
  | json
  | check
  | help (isLong : Bool)
  | version
  deriving DecidableEq, Repr

/-- The arguments of the program or of a command. -/
structure Grammar where
  /-- The command, for help on it. -/
  verb? : Option Verb := none
  options : List (String × Parameter) := []
  flags : List (String × Flag) := []
  shortFlags : List (Char × Flag) := []
  /-- Whether a file may be named. -/
  takesFile : Bool := false
  required : List Parameter := []
  /-- The words that start a command. -/
  commands : List String := []

/-- The word that asks for help. -/
def helpWord : String := "help"

/-- The options of the program and of every command. -/
def globalOptions : List (String × Parameter) :=
  [("level", .level), ("log-format", .logFormat), ("config", .config)]

/-- The short names of options. -/
def shortOptions : List (Char × Parameter) := [('l', .level)]

namespace Grammar

def program : Grammar where
  options := globalOptions
  flags := [("help", .help true), ("version", .version)]
  shortFlags := [('h', .help false), ('V', .version)]
  commands := Verb.all.map Verb.name ++ [helpWord]

/-- The arguments of a command. -/
def command (verb : Verb) (options : List (String × Parameter)) (flags : List (String × Flag))
    (takesFile : Bool) (required : List Parameter) : Grammar where
  verb? := some verb
  options := options ++ globalOptions
  flags := flags ++ [("help", .help true)]
  shortFlags := [('h', .help false)]
  takesFile := takesFile
  required := required

def ofVerb : Verb → Grammar
  | .classify => command .classify [] [("strict", .strict), ("json", .json)] true []
  | .parse =>
    command .parse [("from", .source), ("format", .encoding)] [("check", .check)] true [.source]
  | .translate => command .translate [("from", .source), ("to", .target)] [] true [.target]
  | .formats => command .formats [] [("json", .json)] false []

end Grammar

end CiTranslate.CommandLine

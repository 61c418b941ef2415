import CiTranslate.CommandLine.Usage

/-!
Help on the program and its commands: a short form with one line for each argument, and a
long form that also tells what the values of an option mean.
-/

namespace CiTranslate.CommandLine

/-- What help says of an argument. -/
structure HelpEntry where
  names : String
  about : String
  /-- The environment variable and the default. -/
  notes : List String := []
  values : List String := []
  /-- What the values mean, in their order. -/
  meanings : List String := []
  deriving Repr

/-- What help says of the program or of a command. -/
structure HelpPage where
  about : String
  usage : String
  commands : List HelpEntry := []
  arguments : List HelpEntry := []
  options : List HelpEntry := []
  deriving Repr

namespace HelpEntry

def spaces (count : Nat) : String := String.ofList (List.replicate count ' ')

def valuesNote (entry : HelpEntry) : List String :=
  if entry.values.isEmpty then []
  else
    let names := ", ".intercalate entry.values
    [s!"[possible values: {names}]"]

/-- The line of an argument; its text starts behind the longest names. -/
def line (width : Nat) (entry : HelpEntry) : String :=
  let names := entry.names ++ spaces (width - entry.names.length)
  s!"  {names}  " ++ " ".intercalate (entry.about :: (entry.notes ++ entry.valuesNote))

/-- The lines of a group of arguments. -/
def lines (entries : List HelpEntry) : String :=
  let width := (entries.map (·.names.length)).foldl max 0
  "\n".intercalate (entries.map (line width))

/-- The indentation of texts in the long form. -/
def indent : String := spaces 10

def meaningLine (width : Nat) (value meaning : String) : String :=
  s!"\n{indent}- {value}: {spaces (width - value.length)}{meaning}"

/-- The values with their meanings. -/
def meaningLines (entry : HelpEntry) : String :=
  let width := (entry.values.map String.length).foldl max 0
  s!"\n\n{indent}Possible values:" ++
    String.join (entry.values.zipWith (meaningLine width) entry.meanings)

def paragraphs (entry : HelpEntry) : String :=
  let notes := if entry.meanings.isEmpty then entry.notes ++ entry.valuesNote else entry.notes
  let notes := notes.map fun note => s!"\n{indent}{note}"
  let notes := if notes.isEmpty then "" else s!"\n{indent}" ++ String.join notes
  let meanings := if entry.meanings.isEmpty then "" else entry.meaningLines
  s!"  {entry.names}\n{indent}{entry.about}{notes}{meanings}"

/-- The paragraphs of a group of arguments. -/
def longLines (entries : List HelpEntry) : String := "\n\n".intercalate (entries.map paragraphs)

end HelpEntry

namespace HelpPage

/-- A group of arguments under its heading. -/
def group (heading : String) (write : List HelpEntry → String) (entries : List HelpEntry) :
    List String :=
  if entries.isEmpty then [] else [s!"{heading}:\n" ++ write entries]

def text (isLong : Bool) (page : HelpPage) : String :=
  let write := if isLong then HelpEntry.longLines else HelpEntry.lines
  let groups :=
    group "Commands" HelpEntry.lines page.commands ++ group "Arguments" write page.arguments ++
      group "Options" write page.options
  s!"{page.about}\n\nUsage: {page.usage}\n\n" ++ "\n\n".intercalate groups ++ "\n"

end HelpPage

/-! ### The pages -/

/-- The variable of the environment that names the configuration file. -/
def configVariable : String := "PIPESHIFT_CONFIG"

def levelEntry : HelpEntry where
  names := "-l, --level <LEVEL>"
  about := "Set logging level"
  notes := ["[default: warn]"]
  values := ["trace", "debug", "info", "warn", "error"]
  meanings := ["Show all logs (trace level)", "Show debug and above", "Show info and above",
    "Show warnings and above (default)", "Show errors only"]

def logFormatEntry : HelpEntry where
  names := "    --log-format <LOG_FORMAT>"
  about := "Log line format on stderr"
  notes := ["[default: compact]"]
  values := ["pretty", "compact", "json"]
  meanings := ["Pretty-printed human-readable format", "Compact single-line format",
    "Structured JSON format"]

def configEntry (config? : Option String) : HelpEntry where
  names := "    --config <CONFIG>"
  about := "Configuration file; `pipeshift.toml` in the working directory is used when absent"
  notes :=
    let value := config?.getD ""
    [s!"[env: {configVariable}={value}]"]

def helpEntry (isLong : Bool) : HelpEntry where
  names := "-h, --help"
  about :=
    if isLong then "Print help (see a summary with '-h')"
    else "Print help (see more with '--help')"

def versionEntry : HelpEntry := { names := "-V, --version", about := "Print version" }

def fileEntry : HelpEntry := { names := "[FILE]", about := "Input file; stdin when absent or `-`" }

def Verb.about : Verb → String
  | .classify => "Guess the dialect of a pipeline file"
  | .parse => "Parse a pipeline and print its intermediate representation"
  | .translate => "Translate a pipeline into another system's dialect"
  | .formats => "List supported dialects"

def programPage (isLong : Bool) (config? : Option String) : HelpPage where
  about := "Translate CI/CD pipeline definitions between systems"
  usage := "pipeshift [OPTIONS] <COMMAND>"
  commands :=
    Verb.all.map (fun verb => { names := verb.name, about := verb.about }) ++
      [{ names := "help", about := "Print this message or the help of the given subcommand(s)" }]
  options := [levelEntry, logFormatEntry, configEntry config?, helpEntry isLong, versionEntry]

def verbPage (isLong : Bool) (config? : Option String) (verb : Verb) : HelpPage :=
  let config := configEntry config?
  let help := helpEntry isLong
  match verb with
  | .classify =>
    { about := verb.about
      usage := "pipeshift classify [OPTIONS] [FILE]"
      arguments := [fileEntry]
      options :=
        [levelEntry,
          { names := "    --strict"
            about := "Require every keyword of a dialect instead of the ordered rules" },
          { names := "    --json", about := "Print the result as JSON" },
          logFormatEntry, config, help] }
  | .parse =>
    { about := verb.about
      usage := "pipeshift parse [OPTIONS] --from <FROM> [FILE]"
      arguments := [fileEntry]
      options :=
        [{ names := "    --from <FROM>", about := "Source dialect tag" }, levelEntry,
          { names := "    --format <FORMAT>", about := "Output encoding for the representation"
            notes := ["[default: json]"], values := ["json", "yaml"] },
          logFormatEntry,
          { names := "    --check"
            about := "Fail when the parsed pipeline has structural issues" },
          config, help] }
  | .translate =>
    { about := verb.about
      usage := "pipeshift translate [OPTIONS] --to <TO> [FILE]"
      arguments := [fileEntry]
      options :=
        [{ names := "    --from <FROM>"
           about := "Source dialect tag; classified from the text when absent" },
          levelEntry, logFormatEntry, { names := "    --to <TO>", about := "Target dialect tag" },
          config, help] }
  | .formats =>
    { about := verb.about
      usage := "pipeshift formats [OPTIONS]"
      options :=
        [{ names := "    --json", about := "Print the table as JSON" }, levelEntry,
          logFormatEntry, config, help] }

/-- Help on the program or on a command. -/
def helpText (isLong : Bool) (config? : Option String) (verb? : Option Verb) : String :=
  match verb? with
  | none => (programPage isLong config?).text isLong
  | some verb => (verbPage isLong config? verb).text isLong

def versionText : String := "pipeshift 0.4.1\n"

end CiTranslate.CommandLine

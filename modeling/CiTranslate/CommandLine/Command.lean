import CiTranslate.CommandLine.Arguments
import CiTranslate.CommandLine.Failure
import CiTranslate.Json.Writer
import CiTranslate.Pipeline.Shape
import CiTranslate.Translate
import CiTranslate.Yaml.Writer

/-!
What the commands print: the guessed dialect of a text, its pipeline, the text in another
dialect, and the table of dialects.
-/

namespace CiTranslate.CommandLine

/-- Structured data on lines of its own. -/
def jsonLines (data : Data) : String := Json.writePretty data ++ "\n"

/-- Prints the guessed dialect of a text. -/
def classify (policy : Policy) (asJson : Bool) (text : String) : String :=
  let found := Classification.ofText policy text
  if asJson then
    jsonLines (.record
      [("format", .text found.tag), ("extension", .text found.extension),
        ("language", .text found.language)])
  else s!"{found.tag} {found.extension} {found.language}\n"

def printPipeline (encoding : Encoding) (pipeline : Pipeline) : String :=
  match encoding with
  | .json => jsonLines pipeline.toData
  | .yaml => Yaml.write pipeline.toData

/-- Prints the pipeline of a text in the dialect of a tag. A check refuses pipelines with
issues. -/
def parse (tag : String) (encoding : Encoding) (check : Bool) (text : String) :
    Except Failure String :=
  match Pipeline.parseTagged tag text with
  | .error error => .error (.pipeline error)
  | .ok pipeline =>
    match if check then pipeline.validate else .ok () with
    | .error issues => .error (.invalid issues)
    | .ok () => .ok (printPipeline encoding pipeline)

def dialectOf (tag : String) : Except Failure Dialect := (Dialect.ofTag tag).mapError .pipeline

/-- The dialect of a text: that of the tag, or else the guessed one. -/
def sourceDialect (policy : Policy) (source? : Option String) (text : String) :
    Except Failure Dialect :=
  match source? with
  | some tag => dialectOf tag
  | none =>
    match (Classification.ofText policy text).dialect? with
    | some dialect => .ok dialect
    | none => .error .unknownDialect

/-- A text with a line end at its end. -/
def endingLine (text : String) : String := if text.endsWith "\n" then text else text ++ "\n"

/-- Prints a text in another dialect. The dialect to translate into is looked up first. -/
def translate (configuration : Configuration) (source? : Option String) (target text : String) :
    Except Failure String := do
  let target ← dialectOf target
  let source ← sourceDialect configuration.policy source? text
  let output ← (CiTranslate.translate configuration.settings source target text).mapError .pipeline
  return endingLine output

/-! ### The table of dialects -/

/-- Fills a text up with spaces. -/
def padded (width : Nat) (text : String) : String :=
  text ++ String.ofList (List.replicate (width - text.length) ' ')

/-- A line of the table. -/
def tableLine (tag variant extension language keywords : String) : String :=
  " ".intercalate
    [padded 25 tag, padded 16 variant, padded 8 extension, padded 8 language, keywords] ++ "\n"

def dialectLine (dialect : Dialect) : String :=
  let info := dialect.info
  tableLine info.tag dialect.variant.displayName info.extension info.language
    (", ".intercalate info.keywords)

def dialectRow (dialect : Dialect) : Data :=
  let info := dialect.info
  .record
    [("tag", .text info.tag), ("variant", .text dialect.variant.displayName),
      ("extension", .text info.extension), ("language", .text info.language),
      ("keywords", .texts info.keywords)]

/-- Prints the table of dialects. -/
def formats (asJson : Bool) : String :=
  if asJson then jsonLines (.list (Dialect.all.map dialectRow))
  else
    tableLine "TAG" "VARIANT" "EXT" "LANG" "KEYWORDS" ++
      String.join (Dialect.all.map dialectLine)

end CiTranslate.CommandLine

import CiTranslate.Payload.Fence
import CiTranslate.Text.Blank

/-!
Clean YAML texts: without blank lines, fences and blanks at the ends of lines, and with the
mark of a document at the start. Indentation stays as it is.
-/

namespace CiTranslate.Payload

/-- The mark at the start of a YAML document. -/
def documentStart : List Char := ['-', '-', '-']

/-- Whether a line starts with a fence, after its indentation. -/
def isFenceLine (line : List Char) : Bool := fence.isPrefixOf (Text.trimStart line)

/-- The lines of a text that are neither blank nor a fence, without blanks at their ends. -/
def contentLines (text : List Char) : List (List Char) :=
  ((Text.lines (Text.trim text)).map Text.trimEnd).filter fun line =>
    !line.isEmpty && !isFenceLine line

/-- Puts the mark of a document before lines that do not start with it. -/
def markDocument (lines : List (List Char)) : List (List Char) :=
  match lines with
  | [] => []
  | first :: rest =>
    if documentStart.isPrefixOf first then first :: rest else documentStart :: first :: rest

/-- The clean text. -/
def cleanYaml (text : List Char) : List Char :=
  Text.joinLines (markDocument (contentLines text))

end CiTranslate.Payload

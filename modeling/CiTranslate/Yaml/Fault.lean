import CiTranslate.Yaml.Mark

/-!
Faults in the form of a YAML text: what is wrong and where, and what was being read since
where.
-/

namespace CiTranslate.Yaml

inductive Problem where
  | controlCharacter
  | expectedColon
  | noBlockEntryHere
  | noKeyHere
  | noValueHere
  | noTokenStart
  | unknownDirective
  | expectedDirectiveName
  | nonAlphabetic
  | expectedCommentOrBreak
  | expectedVersionDot
  | longVersion
  | expectedVersion
  | expectedBlank
  | expectedBlankOrBreak
  | expectedNameChar
  | expectedHandleMark
  | expectedTagEnd
  | expectedTagText
  | expectedEscapedOctet
  | badLeadingOctet
  | badTrailingOctet
  | zeroIndentation
  | tabForIndentation
  | tabInIndentation
  | documentMarkerInScalar
  | endInScalar
  | unknownEscape
  | expectedHexDigits
  | invalidCodePoint
  | unexpectedColon
  | expectedDocumentStart
  | duplicateVersion
  | incompatibleVersion
  | duplicateTagDirective
  | undefinedHandle
  | expectedContent
  | expectedDash
  | expectedKey
  | expectedSequenceEnd
  | expectedMappingEnd
  deriving DecidableEq, Repr

def Problem.message : Problem → String
  | .controlCharacter => "control characters are not allowed"
  | .expectedColon => "could not find expected ':'"
  | .noBlockEntryHere => "block sequence entries are not allowed in this context"
  | .noKeyHere => "mapping keys are not allowed in this context"
  | .noValueHere => "mapping values are not allowed in this context"
  | .noTokenStart => "found character that cannot start any token"
  | .unknownDirective => "found unknown directive name"
  | .expectedDirectiveName => "could not find expected directive name"
  | .nonAlphabetic => "found unexpected non-alphabetical character"
  | .expectedCommentOrBreak => "did not find expected comment or line break"
  | .expectedVersionDot => "did not find expected digit or '.' character"
  | .longVersion => "found extremely long version number"
  | .expectedVersion => "did not find expected version number"
  | .expectedBlank => "did not find expected whitespace"
  | .expectedBlankOrBreak => "did not find expected whitespace or line break"
  | .expectedNameChar => "did not find expected alphabetic or numeric character"
  | .expectedHandleMark => "did not find expected '!'"
  | .expectedTagEnd => "did not find the expected '>'"
  | .expectedTagText => "did not find expected tag URI"
  | .expectedEscapedOctet => "did not find URI escaped octet"
  | .badLeadingOctet => "found an incorrect leading UTF-8 octet"
  | .badTrailingOctet => "found an incorrect trailing UTF-8 octet"
  | .zeroIndentation => "found an indentation indicator equal to 0"
  | .tabForIndentation => "found a tab character where an indentation space is expected"
  | .tabInIndentation => "found a tab character that violates indentation"
  | .documentMarkerInScalar => "found unexpected document indicator"
  | .endInScalar => "found unexpected end of stream"
  | .unknownEscape => "found unknown escape character"
  | .expectedHexDigits => "did not find expected hexadecimal number"
  | .invalidCodePoint => "found invalid Unicode character escape code"
  | .unexpectedColon => "found unexpected ':'"
  | .expectedDocumentStart => "did not find expected <document start>"
  | .duplicateVersion => "found duplicate %YAML directive"
  | .incompatibleVersion => "found incompatible YAML document"
  | .duplicateTagDirective => "found duplicate %TAG directive"
  | .undefinedHandle => "found undefined tag handle"
  | .expectedContent => "did not find expected node content"
  | .expectedDash => "did not find expected '-' indicator"
  | .expectedKey => "did not find expected key"
  | .expectedSequenceEnd => "did not find expected ',' or ']'"
  | .expectedMappingEnd => "did not find expected ',' or '\x7d'"

/-- What was being read when a fault was met. -/
inductive Activity where
  | simpleKey
  | nextToken
  | directive
  | versionDirective
  | tagDirective
  | tagDirectiveStart
  | tagDirectiveHandle
  | tagDirectivePrefix
  | tag
  | tagText
  | anchor
  | alias
  | blockScalar
  | quotedScalar
  | quotedEscape
  | plainScalar
  | node
  | blockNode
  | flowNode
  | blockSequence
  | blockMapping
  | flowSequence
  | flowMapping
  deriving DecidableEq, Repr

def Activity.message : Activity → String
  | .simpleKey => "while scanning a simple key"
  | .nextToken => "while scanning for the next token"
  | .directive => "while scanning a directive"
  | .versionDirective => "while scanning a %YAML directive"
  | .tagDirective => "while scanning a %TAG directive"
  | .tagDirectiveStart => "while scanning a tag directive"
  | .tagDirectiveHandle => "while parsing a tag directive"
  | .tagDirectivePrefix => "while parsing a %TAG directive"
  | .tag => "while scanning a tag"
  | .tagText => "while parsing a tag"
  | .anchor => "while scanning an anchor"
  | .alias => "while scanning an alias"
  | .blockScalar => "while scanning a block scalar"
  | .quotedScalar => "while scanning a quoted scalar"
  | .quotedEscape => "while parsing a quoted scalar"
  | .plainScalar => "while scanning a plain scalar"
  | .node => "while parsing a node"
  | .blockNode => "while parsing a block node"
  | .flowNode => "while parsing a flow node"
  | .blockSequence => "while parsing a block collection"
  | .blockMapping => "while parsing a block mapping"
  | .flowSequence => "while parsing a flow sequence"
  | .flowMapping => "while parsing a flow mapping"

/-- What is wrong in a text. Characters that may not occur at all are found before the text
is divided into lines, so there the position is only an offset in bytes. -/
structure Fault where
  problem : Problem
  mark : Mark
  offset : Nat := 0
  since : Option (Activity × Mark) := none
  deriving DecidableEq, Repr

def Mark.isStart (mark : Mark) : Bool := mark.line == 0 && mark.column == 0

/-- The position, counted from one; the start of the text is never named. -/
def Mark.phrase (mark : Mark) : String :=
  if mark.isStart then "" else s!" at line {mark.line + 1} column {mark.column + 1}"

/-- The problem and its position, and the activity with its own position where that is
another. -/
def Fault.message (fault : Fault) : String :=
  let place :=
    if fault.mark.isStart && fault.offset != 0 then s!" at position {fault.offset}"
    else fault.mark.phrase
  let since := match fault.since with
    | none => ""
    | some (activity, mark) =>
      let again := mark.line == fault.mark.line && mark.column == fault.mark.column
      ", " ++ activity.message ++ if again then "" else mark.phrase
  fault.problem.message ++ place ++ since

/-- A fault at the mark, met in an activity since another mark. -/
def faultSince (activity : Activity) (since : Mark) (problem : Problem) (mark : Mark) : Fault :=
  { problem, mark, since := some (activity, since) }

end CiTranslate.Yaml

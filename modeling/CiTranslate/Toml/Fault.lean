/-!
Faults in TOML texts: in their form, in the spelling of keys and values, and keys that are
given twice.
-/

namespace CiTranslate.Toml

/-- How a string is quoted. -/
inductive Quoting where
  | literal
  | basic
  | multilineLiteral
  | multilineBasic
  deriving DecidableEq, Repr

namespace Quoting

/-- The quotes before and after the text. -/
def mark : Quoting → String
  | .literal => "'"
  | .basic => "\""
  | .multilineLiteral => "'''"
  | .multilineBasic => "\"\"\""

/-- One of these quotes. -/
def quote : Quoting → String
  | .literal => "'"
  | .basic => "\""
  | .multilineLiteral => "'"
  | .multilineBasic => "\""

def phrase : Quoting → String
  | .literal => "literal string"
  | .basic => "basic string"
  | .multilineLiteral => "multi-line literal string"
  | .multilineBasic => "multi-line basic string"

def isBasic : Quoting → Bool
  | .basic => true
  | .multilineBasic => true
  | _ => false

def isMultiline : Quoting → Bool
  | .multilineLiteral => true
  | .multilineBasic => true
  | _ => false

/-- What may stand between the quotes. -/
def allowed : Quoting → String
  | .literal => "non-single-quote visible characters"
  | .basic => "non-double-quote visible characters, `\\`"
  | .multilineLiteral => "non-single-quote characters"
  | .multilineBasic => "`\\`, characters"

end Quoting

/-- The kinds of numbers. -/
inductive NumberKind where
  | decimal
  | hexadecimal
  | octal
  | binary
  | float
  deriving DecidableEq, Repr

def NumberKind.phrase : NumberKind → String
  | .decimal => "integer number"
  | .hexadecimal => "hexadecimal number"
  | .octal => "octal number"
  | .binary => "binary number"
  | .float => "float"

/-- What has to come next in an inline table. -/
inductive Awaited where
  | key
  | equals
  | value
  | comma
  deriving DecidableEq, Repr

def Awaited.phrase : Awaited → String
  | .key => "key"
  | .equals => "`=`"
  | .value => "value"
  | .comma => "`,`"

inductive Fault where
  | unclosedTable
  | unclosedArrayTable (missing : String)
  | missingTableOpen
  | invalidPair
  | noValue
  /-- A key that starts with a point and has no value. -/
  | noValueForKey
  | unexpectedText
  | loneReturn
  | commentCharacter
  | extraEquals
  | missingArrayOpen
  | missingInlineOpen
  | unclosedArray
  | extraArrayComma
  | equalsInArray
  | missingArrayComma
  | unclosedInline
  | extraInlineComma (awaited : Awaited)
  | missingInlineComma
  | missingInlineKey (awaited : Awaited)
  | misplacedClose (awaited : Awaited)
  | missingAssignment
  | extraAssignment (awaited : Awaited)
  | tooDeep
  /-- A key of too many parts. -/
  | tooLong
  | emptyKey
  | invalidKey
  | multilineKey (quoting : Quoting)
  | openString (quoting : Quoting)
  | stringCharacter (quoting : Quoting)
  | unknownEscape
  /-- A backslash before blanks that do not end the line. -/
  | openContinuation
  | fewDigits
  | noCodePoint
  | notQuoted
  | missingQuote (quoting : Quoting)
  | invalidWord (kind word : String)
  | invalidNumber (kind : NumberKind)
  | noDigits (part : String)
  | afterFloat
  | leadingZero
  | misplacedUnderscore
  | secondSign
  | signedRadix
  | signAfterRadix
  | capitalRadix (radix : Char)
  | decimalRadix
  /-- The part that is wrong, and what belongs there. -/
  | dateTime (part : String) (expected : Option String)
  | duplicateKey
  /-- A key below a value of another type than a table. -/
  | notExtensible (type : String)
  deriving DecidableEq, Repr

def Fault.message : Fault → String
  | .unclosedTable => "unclosed table, expected `]`"
  | .unclosedArrayTable missing => s!"unclosed array table, expected `{missing}`"
  | .missingTableOpen => "missing table open, expected `[`"
  | .invalidPair => "invalid key-value pair, expected key"
  | .noValue => "key with no value, expected `=`"
  | .noValueForKey => "missing value for key, expected `=`"
  | .unexpectedText => "unexpected key or value, expected newline, `#`"
  | .loneReturn => "carriage return must be followed by newline, expected newline"
  | .commentCharacter => "invalid comment character, expected printable characters"
  | .extraEquals => "extra `=`, expected nothing"
  | .missingArrayOpen => "missing array opening, expected `[`"
  | .missingInlineOpen => "missing inline table opening, expected `\x7b`"
  | .unclosedArray => "unclosed array, expected `]`"
  | .extraArrayComma => "extra comma in array, expected value"
  | .equalsInArray => "unexpected `=` in array, expected value, `]`"
  | .missingArrayComma => "missing comma between array elements, expected `,`"
  | .unclosedInline => "unclosed inline table, expected `\x7d`"
  | .extraInlineComma awaited => s!"extra comma in inline table, expected {awaited.phrase}"
  | .missingInlineComma => "missing comma between key-value pairs, expected `,`"
  | .missingInlineKey awaited =>
    s!"missing key for inline table element, expected {awaited.phrase}"
  | .misplacedClose awaited => s!"invalid inline table element, expected {awaited.phrase}"
  | .missingAssignment => "missing assignment between key-value pairs, expected `=`"
  | .extraAssignment awaited =>
    s!"extra assignment between key-value pairs, expected {awaited.phrase}"
  | .tooDeep => "cannot recurse further; max recursion depth met"
  | .tooLong => "recursion limit"
  | .emptyKey => "unquoted keys cannot be empty, expected letters, numbers, `-`, `_`"
  | .invalidKey => "invalid unquoted key, expected letters, numbers, `-`, `_`"
  | .multilineKey quoting =>
    s!"keys cannot be {quoting.phrase}s, expected basic string, literal string"
  | .openString quoting => s!"invalid {quoting.phrase}, expected `{quoting.quote}`"
  | .stringCharacter quoting => s!"invalid {quoting.phrase}, expected {quoting.allowed}"
  | .unknownEscape =>
    "missing escaped value, expected `b`, `e`, `f`, `n`, `r`, `\\`, `\"`, `x`, `u`, `U`"
  | .openContinuation => "invalid multi-line basic string, expected newline"
  | .fewDigits => "too few unicode value digits, expected unicode hexadecimal value"
  | .noCodePoint => "invalid value, expected unicode hexadecimal value"
  | .notQuoted => "string values must be quoted, expected literal string"
  | .missingQuote quoting => s!"missing opening quote, expected `{quoting.mark}`"
  | .invalidWord kind word => s!"invalid {kind}, expected `{word}`"
  | .invalidNumber kind => s!"invalid {kind.phrase}"
  | .noDigits part => s!"invalid {part}, expected digits"
  | .afterFloat => "invalid float, expected nothing"
  | .leadingZero => "unexpected leading zero, expected nothing"
  | .misplacedUnderscore => "`_` may only go between digits, expected nothing"
  | .secondSign => "redundant numeric sign, expected nothing"
  | .signedRadix => "integers with a radix cannot be signed, expected nothing"
  | .signAfterRadix => "unexpected sign, expected nothing"
  | .capitalRadix radix => s!"radix must be lowercase, expected `0{radix}`"
  | .decimalRadix => "redundant integer number prefix, expected nothing"
  | .dateTime part none => s!"invalid {part}"
  | .dateTime part (some expected) => s!"invalid {part}, expected {expected}"
  | .duplicateKey => "duplicate key"
  | .notExtensible type => s!"cannot extend value of type {type} with a dotted key"

end CiTranslate.Toml

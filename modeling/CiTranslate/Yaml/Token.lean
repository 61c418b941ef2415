import CiTranslate.Yaml.Fault

/-!
Tokens of a YAML text.
-/

namespace CiTranslate.Yaml

/-- How a scalar is written. Only plain scalars can stand for something else than text. -/
inductive Style where
  | plain
  | quoted
  | block
  deriving DecidableEq, Repr

/-- The name of a tag as it is written: a handle, which a directive may explain, and the
rest. A verbatim tag has no handle. -/
structure TagName where
  handle : List Char
  suffix : List Char
  deriving DecidableEq, Repr

inductive TokenKind where
  | streamStart
  | streamEnd
  | version (major minor : Nat)
  | tagDirective (handle expansion : List Char)
  | documentStart
  | documentEnd
  | blockSequenceStart
  | blockMappingStart
  | blockEnd
  | flowSequenceStart
  | flowSequenceEnd
  | flowMappingStart
  | flowMappingEnd
  | blockEntry
  | flowEntry
  | key
  | value
  | alias (name : List Char)
  | anchor (name : List Char)
  | tag (name : TagName)
  | scalar (text : List Char) (style : Style)
  deriving DecidableEq, Repr

/-- A token and the positions of its two ends. -/
structure Token where
  kind : TokenKind
  start : Mark
  stop : Mark
  deriving Repr

end CiTranslate.Yaml

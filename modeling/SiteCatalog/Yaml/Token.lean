import SiteCatalog.Yaml.Char

/-!
# Tokens of YAML text

The pieces that a YAML text consists of. Indentation appears among them as the start and the end of
block collections.
-/

namespace SiteCatalog.Yaml

/-- How a scalar is written in the text. -/
inductive Quoting
  | plain
  | quoted
  /-- A block of lines that are kept as they are. -/
  | literal
  /-- A block of lines that are joined. -/
  | folded
  deriving DecidableEq, Repr

/-- A token. -/
inductive Token
  | version (major minor : Nat)
  | handle (name expansion : List Char)
  | documentStart
  | documentEnd
  | blockSequence
  | blockMapping
  | blockEnd
  | flowSequence
  | flowSequenceEnd
  | flowMapping
  | flowMappingEnd
  | blockEntry
  | flowEntry
  | key
  | value
  | alias (name : List Char)
  | anchor (name : List Char)
  | tag (handle suffix : List Char)
  | scalar (text : List Char) (quoting : Quoting)
  deriving DecidableEq, Repr

end SiteCatalog.Yaml

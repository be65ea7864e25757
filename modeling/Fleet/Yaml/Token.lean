/-!
# Tokens of YAML texts

The words of the notation.  A key written without a question mark, and the beginnings and ends of
collections that only the indentation shows, are tokens like the others.
-/

namespace Fleet.Yaml

/-- The ways to write a scalar. -/
inductive ScalarStyle where
  | plain
  | singleQuoted
  | doubleQuoted
  | literal
  | folded
  deriving DecidableEq, Inhabited

/-- A tag as written: a handle and what follows it; a verbatim tag has the empty handle. -/
structure TagText where
  handle : String
  suffix : String
  deriving DecidableEq, Inhabited

/-- The words of the notation. -/
inductive Token where
  | streamEnd
  | versionDirective (major minor : Nat)
  | tagDirective (handle expansion : String)
  | documentStart
  | documentEnd
  | blockSequenceStart
  | blockMappingStart
  | blockEnd
  | flowSequenceStart
  | flowSequenceEnd
  | flowMappingStart
  | flowMappingEnd
  | blockEntry
  | flowEntry
  | key
  | value
  | alias (name : String)
  | anchor (name : String)
  | tag (text : TagText)
  | scalar (style : ScalarStyle) (text : String)
  deriving DecidableEq, Inhabited

end Fleet.Yaml

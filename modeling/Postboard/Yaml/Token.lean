import Postboard.Yaml.Cursor

/-! The tokens of a YAML text. -/

set_option autoImplicit false

namespace Postboard.Yaml

/-- The tag of a node as it is written: a handle, which a directive may expand, and a suffix. -/
structure TagText where
  handle : List Char
  suffix : List UInt8
  deriving DecidableEq, Repr

/-- A token. The end of the text is the end of the list of tokens. -/
inductive Token where
  | version (major minor : Nat)
  | tagDirective (handle : List Char) (start : List UInt8)
  | documentStart
  | documentEnd
  | blockSequence
  | blockMapping
  | blockEnd
  | flowSequence
  | flowSequenceEnd
  | flowMapping
  | flowMappingEnd
  | item
  | comma
  | key
  | value
  | alias (name : List Char)
  | anchor (name : List Char)
  | tag (t : TagText)
  | scalar (text : List Char) (plain : Bool)
  deriving DecidableEq, Repr

end Postboard.Yaml

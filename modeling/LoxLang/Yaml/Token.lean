/-! The tokens of a YAML text: marks of structure, properties of nodes, and scalars. -/
namespace LoxLang.Yaml

inductive Lexeme where
  | version (major minor : Nat)
  /-- A directive: tags with the handle begin with the given text. -/
  | handle (handle front : String)
  | documentStart
  | documentEnd
  | blockSequenceStart
  | blockMappingStart
  | blockEnd
  | flowSequenceStart
  | flowSequenceEnd
  | flowMappingStart
  | flowMappingEnd
  /-- The dash before an item of a block sequence. -/
  | blockEntry
  /-- The comma between items in brackets. -/
  | flowEntry
  | key
  | value
  | anchor (name : String)
  /-- The place of a node that an anchor names. -/
  | reference (name : String)
  | tag (handle rest : String)
  | scalar (text : List Char) (plain : Bool)
  | streamEnd
deriving DecidableEq, Inhabited, Repr

/-- A token and the line that it begins on, counted from one. -/
structure Token where
  lexeme : Lexeme
  line : Nat
deriving DecidableEq, Inhabited, Repr

end LoxLang.Yaml

import LoxLang.Yaml.Character

/-! Positions in a text: characters since its beginning, lines, and columns. -/
namespace LoxLang.Yaml

structure Position where
  index : Nat := 0
  /-- Lines are counted from one. -/
  line : Nat := 1
  /-- Columns are counted from zero. -/
  column : Nat := 0
deriving DecidableEq, Inhabited, Repr

/-- The position behind some text. A carriage return and a line feed are one break. -/
def Position.after (p : Position) : List Char → Position
  | [] => p
  | '\r' :: '\n' :: rest =>
    Position.after { index := p.index + 2, line := p.line + 1, column := 0 } rest
  | c :: rest =>
    if isBreak c then
      Position.after { index := p.index + 1, line := p.line + 1, column := 0 } rest
    else Position.after { p with index := p.index + 1, column := p.column + 1 } rest

/-- The text that is still to be read, and where it begins. -/
structure Cursor where
  position : Position := {}
  rest : List Char
deriving DecidableEq, Inhabited, Repr

/-- The cursor where the text goes on with `rest`, a tail of what is to be read. -/
def Cursor.goTo (c : Cursor) (rest : List Char) : Cursor :=
  { position := c.position.after (c.rest.take (c.rest.length - rest.length)), rest }

end LoxLang.Yaml

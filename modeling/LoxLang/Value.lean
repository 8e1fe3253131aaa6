import LoxLang.Number

/-! Run-time values. The program text can only produce `nil`, booleans, numbers and strings;
`void` is what a statement without a value gives, `callable` stands for functions, of which the
language has none yet, and `missing` is the place of a value in a tree that was built without one. -/
namespace LoxLang

inductive Value where
  | nil
  | bool (b : Bool)
  | num (x : Float)
  | str (s : String)
  | callable (id : Int)
  | void
  | missing
deriving Inhabited

namespace Value

def typeName : Value → String
  | nil => "nil"
  | bool _ => "boolean"
  | num _ => "number"
  | str _ => "string"
  | callable _ => "callable"
  | void => "void"
  | missing => "unknown"

/-- The text that `print` writes. A missing value has none. -/
def text? : Value → Option String
  | nil => some "nil"
  | bool b => some (if b then "true" else "false")
  | num x => some (Number.text x)
  | str s => some s
  | callable id => some s!"<fn {id}>"
  | void => some ""
  | missing => none

/-- Only `nil` and `false` count as false. -/
def truthy : Value → Bool
  | nil => false
  | bool b => b
  | _ => true

/-- Values are equal when they are of one kind and have the same content. Numbers compare as
floats, so a NaN differs from itself, and a missing value equals nothing. -/
def equal : Value → Value → Bool
  | nil, nil => true
  | bool a, bool b => a == b
  | num a, num b => a == b
  | str a, str b => a == b
  | callable a, callable b => a == b
  | void, void => true
  | _, _ => false

end Value
end LoxLang

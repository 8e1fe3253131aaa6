import LoxLang.Machine

/-! What the operators do with values. The operands have been evaluated, left before right. -/
namespace LoxLang

def applyUnary (operator : Token) (right : Value) : Except RuntimeCause Value :=
  match operator.kind, right with
  | .minus, .num x => .ok (.num (-x))
  | .minus, _ => .error .operandNotNumber
  | .bang, _ => .ok (.bool (!right.truthy))
  | _, _ => .error .invalidUnary

/-- The sum of two numbers, or two strings one after the other. -/
def add : Value → Value → Except RuntimeCause Value
  | .num a, .num b => .ok (.num (a + b))
  | .str a, .str b => .ok (.str (a ++ b))
  | _, _ => .error .operandsNotAddable

def onNumbers (f : Float → Float → Except RuntimeCause Value) : Value → Value → Except RuntimeCause Value
  | .num a, .num b => f a b
  | _, _ => .error .operandsNotNumbers

/-- The quotient; no number can be divided by zero. -/
def divide (a b : Float) : Except RuntimeCause Value :=
  if b == 0 then .error .divisionByZero else .ok (.num (a / b))

def applyBinary (operator : Token) (left right : Value) : Except RuntimeCause Value :=
  match operator.kind with
  | .equalEqual => .ok (.bool (left.equal right))
  | .bangEqual => .ok (.bool (!left.equal right))
  | .plus => add left right
  | .minus => onNumbers (fun a b => .ok (.num (a - b))) left right
  | .star => onNumbers (fun a b => .ok (.num (a * b))) left right
  | .slash => onNumbers divide left right
  | .greater => onNumbers (fun a b => .ok (.bool (a > b))) left right
  | .greaterEqual => onNumbers (fun a b => .ok (.bool (a ≥ b))) left right
  | .less => onNumbers (fun a b => .ok (.bool (a < b))) left right
  | .lessEqual => onNumbers (fun a b => .ok (.bool (a ≤ b))) left right
  | _ => .error .invalidBinary

end LoxLang

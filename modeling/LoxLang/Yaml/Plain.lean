import LoxLang.Yaml.Numeral
import LoxLang.Yaml.Timestamp

/-! What an unquoted YAML scalar stands for. Words for null and booleans, numerals and dates are
told by their shape; anything else is a string. -/
namespace LoxLang.Yaml

inductive Plain where
  | null
  | bool (b : Bool)
  | int (n : Int)
  | float (x : Float)
  | timestamp
  | str
deriving Inhabited

namespace Plain

def words : List (String × Plain) :=
  ["", "~", "null", "Null", "NULL"].map (·, null) ++
  ["y", "Y", "yes", "Yes", "YES", "true", "True", "TRUE", "on", "On", "ON"].map (·, bool true) ++
  ["n", "N", "no", "No", "NO", "false", "False", "FALSE", "off", "Off", "OFF"].map
    (·, bool false) ++
  [".nan", ".NaN", ".NAN"].map (·, float (0 / 0)) ++
  [".inf", ".Inf", ".INF", "+.inf", "+.Inf", "+.INF"].map (·, float (1 / 0)) ++
  ["-.inf", "-.Inf", "-.INF"].map (·, float (-1 / 0))

/-- What a text that begins with a digit or a sign stands for. Underscores in a numeral do not
count. -/
def ofDigits (dates : Bool) (text : List Char) : Plain :=
  let digits := text.filter (· != '_')
  if dates && isTimestamp text then timestamp
  else
    match integer? digits with
    | some n => int n
    | none => ((float? digits).map float).getD str

def ofPoint (text : List Char) : Plain :=
  if separatesDigits false text then ((float? (text.filter (· != '_'))).map float).getD str else str

/-- What the unquoted text stands for, where dates may not count. -/
def resolve (dates : Bool) (text : List Char) : Plain :=
  match words.lookup (String.ofList text) with
  | some plain => plain
  | none =>
    match text with
    | [] => str
    | c :: _ =>
      if c == '.' then ofPoint text
      else if c.isDigit || c == '+' || c == '-' then ofDigits dates text
      else str

end Plain
end LoxLang.Yaml

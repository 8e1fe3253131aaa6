import LoxLang.Number

/-! Dates and times of day as YAML scalars spell them. -/
namespace LoxLang.Yaml

def shortNumber? : List Char → Option (Nat × List Char)
  | a :: b :: rest =>
    if a.isDigit && b.isDigit then some (Number.digitsValue [a, b], rest)
    else if a.isDigit then some (Number.digitsValue [a], b :: rest)
    else none
  | [a] => if a.isDigit then some (Number.digitsValue [a], []) else none
  | [] => none

def daysIn (year month : Nat) : Nat :=
  if month = 2 then
    if (year % 4 = 0 ∧ year % 100 ≠ 0) ∨ year % 400 = 0 then 29 else 28
  else if month = 4 ∨ month = 6 ∨ month = 9 ∨ month = 11 then 30 else 31

def cutDate? (text : List Char) : Option (List Char) := do
  let year := text.takeWhile Char.isDigit
  guard (year.length = 4)
  let '-' :: rest := text.dropWhile Char.isDigit | none
  let (month, rest) ← shortNumber? rest
  let '-' :: rest := rest | none
  let (day, rest) ← shortNumber? rest
  guard (1 ≤ month ∧ month ≤ 12 ∧ 1 ≤ day ∧ day ≤ daysIn (Number.digitsValue year) month)
  return rest

/-- What follows a fraction of a second, which has a point or a comma in front. -/
def afterFraction : List Char → List Char
  | mark :: digit :: rest =>
    if (mark == '.' || mark == ',') && digit.isDigit then rest.dropWhile Char.isDigit
    else mark :: digit :: rest
  | rest => rest

def cutTime? (text : List Char) : Option (List Char) := do
  let (hour, rest) ← shortNumber? text
  let ':' :: rest := rest | none
  let (minute, rest) ← shortNumber? rest
  let ':' :: rest := rest | none
  let (second, rest) ← shortNumber? rest
  guard (hour < 24 ∧ minute < 60 ∧ second < 60)
  return afterFraction rest

def isZone : List Char → Bool
  | ['Z'] => true
  | [sign, a, b, ':', c, d] =>
    (sign == '+' || sign == '-') && [a, b, c, d].all Char.isDigit &&
      Number.digitsValue [a, b] ≤ 24 && Number.digitsValue [c, d] ≤ 60
  | _ => false

/-- A date, or a date and a time with a zone after `T` or without one after blanks. -/
def isTimestamp (text : List Char) : Bool :=
  match cutDate? text with
  | some [] => true
  | some ('T' :: rest) | some ('t' :: rest) => ((cutTime? rest).map isZone).getD false
  | some (' ' :: rest) => ((cutTime? (rest.dropWhile (· == ' '))).map List.isEmpty).getD false
  | _ => false

end LoxLang.Yaml

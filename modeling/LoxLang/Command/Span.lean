import LoxLang.Number

/-! Spans of time as texts: in the largest unit that leaves a whole part, without idle zeros. -/
namespace LoxLang

/-- The decimals of `part` units of which `10 ^ places` make a whole one, with the point in front and
without zeros at the end. -/
def spanDecimals (places part : Nat) : String :=
  String.ofList (Number.trimDecimals ('.' :: Number.padded places part))

/-- An amount of nanoseconds in a unit of `10 ^ places` of them. -/
def spanIn (places : Nat) (unit : String) (nanoseconds : Nat) : String :=
  let one := Nat.pow 10 places
  toString (nanoseconds / one) ++ spanDecimals places (nanoseconds % one) ++ unit

def spanText (nanoseconds : Nat) : String :=
  let second := Nat.pow 10 9
  if nanoseconds = 0 then "0s"
  else if nanoseconds < Nat.pow 10 3 then spanIn 0 "ns" nanoseconds
  else if nanoseconds < Nat.pow 10 6 then spanIn 3 "µs" nanoseconds
  else if nanoseconds < second then spanIn 6 "ms" nanoseconds
  else
    let minutes := nanoseconds / (60 * second)
    let rest := spanIn 9 "s" (nanoseconds % (60 * second))
    if minutes = 0 then rest
    else if minutes < 60 then s!"{minutes}m{rest}"
    else s!"{minutes / 60}h{minutes % 60}m{rest}"

end LoxLang

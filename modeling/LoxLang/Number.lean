/-! Numbers are binary64 floats. Reading a numeral and writing a number both go through exact
integer arithmetic on the bits: a finite double is a whole number of units of `2 ^ -1074`, a
numeral is a quotient of whole numbers, and the only rounding is `roundQuotient`. -/
namespace LoxLang

/-- The whole number nearest to `num / den`; a half goes to the even neighbour. -/
def roundQuotient (num den : Nat) : Nat :=
  let quotient := num / den
  let twice := 2 * (num % den)
  if den < twice ∨ (twice = den ∧ quotient % 2 = 1) then quotient + 1 else quotient

namespace Number

/-- One, measured in the smallest positive double. -/
def one : Nat := Nat.pow 2 1074

def exponentField (bits : Nat) : Nat :=
  bits / Nat.pow 2 52 % 2048

def fractionField (bits : Nat) : Nat :=
  bits % Nat.pow 2 52

def isNegative (bits : Nat) : Bool :=
  bits / Nat.pow 2 63 % 2 == 1

/-- The absolute value of a finite double, in units of `2 ^ -1074`. -/
def units (bits : Nat) : Nat :=
  match exponentField bits with
  | 0 => fractionField bits
  | exponent + 1 => (Nat.pow 2 52 + fractionField bits) * Nat.pow 2 exponent

/-- The bits of positive infinity. Every smaller pattern is a finite, non-negative double. -/
def infinity : Nat := 2047 * Nat.pow 2 52

/-- The bits of the double nearest to `num / den`, a half going to the even one. The significand is
added to the shifted exponent, so that one rounded up to the next power of two carries into the
exponent field; a quotient that is too large gives `infinity` or more. -/
def nearest (num den : Nat) : Nat :=
  let scaled := num * one
  let shift := (scaled / den).log2 - 52
  shift * Nat.pow 2 52 + roundQuotient scaled (den * Nat.pow 2 shift)

def digitsValue (digits : List Char) : Nat :=
  digits.foldl (fun value digit => value * 10 + (digit.toNat - '0'.toNat)) 0

/-- The bits for the numeral `whole.fraction`, both rows of decimal digits. -/
def numeralBits (whole fraction : List Char) : Nat :=
  nearest (digitsValue (whole ++ fraction)) (Nat.pow 10 fraction.length)

def overflows (whole fraction : List Char) : Bool :=
  infinity ≤ numeralBits whole fraction

/-- The double that a numeral denotes: the nearest one, or infinity. -/
def ofNumeral (whole fraction : List Char) : Float :=
  .ofBits (UInt64.ofNat (min infinity (numeralBits whole fraction)))

def places : Nat := 6

/-- The digits of `value`, with zeros in front up to `width`. -/
def padded (width value : Nat) : List Char :=
  let digits := Nat.toDigits 10 value
  List.replicate (width - digits.length) '0' ++ digits

/-- The text of `value / 10 ^ places`, with all its decimals. -/
def fixed (value : Nat) : List Char :=
  Nat.toDigits 10 (value / Nat.pow 10 places) ++ '.' :: padded places (value % Nat.pow 10 places)

def trimZeros (text : List Char) : List Char :=
  (text.reverse.dropWhile (· == '0')).reverse

/-- The text without the zeros at its end, and then without a point there. -/
def trimDecimals (text : List Char) : List Char :=
  let trimmed := trimZeros text
  if trimmed.getLast? = some '.' then trimmed.dropLast else trimmed

/-- The absolute value of a finite double in steps of `10 ^ -places`, rounded to the nearest. -/
def steps (bits : Nat) : Nat :=
  roundQuotient (units bits * Nat.pow 10 places) one

def textOfBits (bits : Nat) : String :=
  let negative := isNegative bits
  if exponentField bits = 2047 then
    if fractionField bits ≠ 0 then "NaN" else if negative then "-Inf" else "+Inf"
  else
    let body := fixed (steps bits)
    String.ofList (trimDecimals (if negative then '-' :: body else body))

/-- A number is written with up to six decimals, rounded from its exact value, and no exponent. -/
def text (x : Float) : String :=
  textOfBits x.toBits.toNat

end Number
end LoxLang

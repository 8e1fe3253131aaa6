import LoxLang.Number
import LoxLang.Text.Digit

/-! Numerals as YAML scalars spell them: whole numbers in several bases, and decimal numerals with a
point or an exponent. -/
namespace LoxLang.Yaml

def naturalIn? (base : Nat) (digits : List Char) : Option Nat :=
  if digits.isEmpty then none
  else
    digits.foldlM (fun n c => (Text.digitValue? c).bind fun d =>
      if d < base then some (n * base + d) else none) 0

/-- The value of a numeral without a sign; its first characters tell the base. -/
def natural? : List Char → Option Nat
  | '0' :: 'x' :: digits | '0' :: 'X' :: digits => naturalIn? 16 digits
  | '0' :: 'b' :: digits | '0' :: 'B' :: digits => naturalIn? 2 digits
  | '0' :: 'o' :: digits | '0' :: 'O' :: digits => naturalIn? 8 digits
  | '0' :: c :: digits => naturalIn? 8 (c :: digits)
  | digits => naturalIn? 10 digits

/-- The value of a numeral that fits 64 bits, where `natural?` reads what follows the sign. Only one
without a sign may use all 64 bits for its size. -/
def signed? (natural? : List Char → Option Nat) : List Char → Option Int
  | '-' :: rest => (natural? rest).bind fun n => if n ≤ Nat.pow 2 63 then some (-(n : Int)) else none
  | '+' :: rest => (natural? rest).bind fun n => if n < Nat.pow 2 63 then some (n : Int) else none
  | rest => (natural? rest).bind fun n => if n < Nat.pow 2 64 then some (n : Int) else none

/-- The value of a whole numeral. The sign of a binary one may also stand behind its mark. -/
def integer? (text : List Char) : Option Int :=
  match signed? natural? text, text with
  | some n, _ => some n
  | none, '0' :: 'b' :: rest => signed? (naturalIn? 2) rest
  | none, _ => none

def cutSign : List Char → Bool × List Char
  | '-' :: rest => (true, rest)
  | '+' :: rest => (false, rest)
  | rest => (false, rest)

/-- Decimal exponents beyond this bound, in either direction, leave the range of doubles. -/
def exponentBound : Int := 400

/-- The double `whole.fraction * 10 ^ exponent`, unless it is too large. -/
def scientific? (negative : Bool) (whole fraction : List Char) (exponent : Int) : Option Float :=
  let digits := Number.digitsValue (whole ++ fraction)
  let places : Int := fraction.length - exponent
  let magnitude : Int := (Nat.toDigits 10 digits).length - places
  let bits :=
    if digits = 0 ∨ magnitude < -exponentBound then 0
    else if exponentBound < magnitude then Number.infinity
    else Number.nearest (digits * Nat.pow 10 (-places).toNat) (Nat.pow 10 places.toNat)
  if Number.infinity ≤ bits then none
  else
    let x := Float.ofBits (UInt64.ofNat bits)
    some (if negative then -x else x)

/-- The exponent of a decimal numeral; nothing at all is exponent zero. -/
def exponent? : List Char → Option Int
  | [] => some 0
  | e :: rest =>
    let (negative, digits) := cutSign rest
    if (e == 'e' || e == 'E') && !digits.isEmpty && digits.all Char.isDigit then
      let n : Int := Number.digitsValue digits
      some (if negative then -n else n)
    else none

/-- A decimal numeral: digits, with a point anywhere among them, and perhaps an exponent. -/
def float? (text : List Char) : Option Float :=
  let (negative, body) := cutSign text
  let whole := body.takeWhile Char.isDigit
  let (fraction, rest) :=
    match body.dropWhile Char.isDigit with
    | '.' :: more => (more.takeWhile Char.isDigit, more.dropWhile Char.isDigit)
    | rest => ([], rest)
  if whole.isEmpty && fraction.isEmpty then none
  else (exponent? rest).bind (scientific? negative whole fraction)

/-- Every underscore stands between two digits, where `afterDigit` tells whether a digit comes before
the text. -/
def separatesDigits (afterDigit : Bool) : List Char → Bool
  | [] => true
  | '_' :: rest =>
    afterDigit && ((rest.head?.map Char.isDigit).getD false) && separatesDigits false rest
  | c :: rest => separatesDigits c.isDigit rest

/-- Groups of up to two digits after colons, the first of two being at most five, and then perhaps a
fraction. At most `fuel` groups are looked at. -/
def isSexagesimalTail (seen : Bool) : (fuel : Nat) → List Char → Bool
  | 0, rest => seen && rest.isEmpty
  | fuel + 1, rest =>
    match rest with
    | [] => seen
    | '.' :: more => seen && more.all fun c => c.isDigit || c == '_'
    | ':' :: a :: b :: more =>
      if '0' ≤ a && a ≤ '5' && b.isDigit then isSexagesimalTail true fuel more
      else a.isDigit && isSexagesimalTail true fuel (b :: more)
    | [':', a] => a.isDigit
    | _ => false

def isSexagesimal (text : List Char) : Bool :=
  let (_, body) := cutSign text
  let first := body.takeWhile fun c => c.isDigit || c == '_'
  let rest := body.dropWhile fun c => c.isDigit || c == '_'
  (first.head?.map Char.isDigit).getD false && isSexagesimalTail false rest.length rest

end LoxLang.Yaml

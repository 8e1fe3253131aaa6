/-! Base 64: bytes in letters, digits and two signs, four characters for three bytes. -/
namespace LoxLang.Text

def sextet? (c : Char) : Option Nat :=
  if c.isUpper then some (c.toNat - 'A'.toNat)
  else if c.isLower then some (c.toNat - 'a'.toNat + 26)
  else if c.isDigit then some (c.toNat - '0'.toNat + 52)
  else if c == '+' then some 62
  else if c == '/' then some 63
  else none

def threeBytes (count n : Nat) : List UInt8 :=
  ([n / 65536, n / 256, n].map UInt8.ofNat).take count

/-- The bytes that groups of four characters spell. The last group may end in one or two signs of
equality, and has so many bytes less. -/
def groups? : List Char → Option (List UInt8)
  | [] => some []
  | [a, b, '=', '='] => do
    let x ← sextet? a
    let y ← sextet? b
    return threeBytes 1 (x * 262144 + y * 4096)
  | [a, b, c, '='] => do
    let x ← sextet? a
    let y ← sextet? b
    let z ← sextet? c
    return threeBytes 2 (x * 262144 + y * 4096 + z * 64)
  | a :: b :: c :: d :: rest => do
    let x ← sextet? a
    let y ← sextet? b
    let z ← sextet? c
    let w ← sextet? d
    let bytes ← groups? rest
    return threeBytes 3 (x * 262144 + y * 4096 + z * 64 + w) ++ bytes
  | _ => none

/-- The bytes that a text spells; line ends in it do not count. -/
def decodeBase64? (text : List Char) : Option (List UInt8) :=
  groups? (text.filter fun c => c != '\n' && c != '\r')

end LoxLang.Text

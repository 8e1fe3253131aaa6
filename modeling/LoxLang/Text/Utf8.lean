/-! Reading bytes as text. A byte that does not begin a well-formed sequence is read on its own as
the replacement character, so every byte string has a reading. -/
namespace LoxLang.Text

/-- What stands for a byte outside every well-formed sequence. -/
def replacement : Char := '\ufffd'

/-- For the first byte of a sequence: how many bytes follow, the bits that it contributes, and the
least code point that needs so many. -/
def leadByte? (b : Nat) : Option (Nat × Nat × Nat) :=
  if b < 0x80 then some (0, b, 0)
  else if b < 0xc0 then none
  else if b < 0xe0 then some (1, b - 0xc0, 0x80)
  else if b < 0xf0 then some (2, b - 0xe0, 0x800)
  else if b < 0xf8 then some (3, b - 0xf0, 0x10000)
  else none

def isContinuation (b : UInt8) : Bool :=
  0x80 ≤ b && b < 0xc0

/-- The character that `b` and the bytes after it spell in shortest form, and the number of bytes
taken after `b`. -/
def sequence? (b : UInt8) (rest : List UInt8) : Option (Char × Nat) := do
  let (count, bits, least) ← leadByte? b.toNat
  let tail := rest.take count
  let code := tail.foldl (fun code t => code * 0x40 + (t.toNat - 0x80)) bits
  if tail.length = count ∧ tail.all isContinuation ∧ least ≤ code ∧ code.isValidChar then
    some (Char.ofNat code, count)
  else none

def decodeUtf8 : List UInt8 → List Char
  | [] => []
  | b :: rest =>
    match sequence? b rest with
    | some (c, count) => c :: decodeUtf8 (rest.drop count)
    | none => replacement :: decodeUtf8 rest
termination_by bytes => bytes.length
decreasing_by all_goals simp only [List.length_drop, List.length_cons]; omega

end LoxLang.Text

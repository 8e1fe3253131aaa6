import LoxLang.Text.Printable

/-! Texts in double quotes for showing: printable characters stand as they are, the others as
escapes. -/
namespace LoxLang.Text

def lowerHex (width value : Nat) : List Char :=
  let digits := Nat.toDigits 16 value
  List.replicate (width - digits.length) '0' ++ digits

/-- A character as it is shown between double quotes. -/
def shownChar (c : Char) : List Char :=
  match c with
  | '"' => ['\\', '"']
  | '\\' => ['\\', '\\']
  | '\x07' => ['\\', 'a']
  | '\x08' => ['\\', 'b']
  | '\x0c' => ['\\', 'f']
  | '\n' => ['\\', 'n']
  | '\r' => ['\\', 'r']
  | '\t' => ['\\', 't']
  | '\x0b' => ['\\', 'v']
  | _ =>
    if isPrintable c then [c]
    else if c.toNat < 0x20 ∨ c.toNat = 0x7f then '\\' :: 'x' :: lowerHex 2 c.toNat
    else if c.toNat < 0x10000 then '\\' :: 'u' :: lowerHex 4 c.toNat
    else '\\' :: 'U' :: lowerHex 8 c.toNat

def quoted (text : String) : String :=
  String.ofList ('"' :: text.toList.flatMap shownChar ++ ['"'])

end LoxLang.Text

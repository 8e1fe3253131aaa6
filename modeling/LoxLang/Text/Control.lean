import LoxLang.Text.Printable

/-! Characters that have no shape of their own: controls, format characters, private use and
unassigned code points (general category C in Unicode 17). These are all characters but the printable
ones and the separators. -/
namespace LoxLang.Text

/-- The character is a space that divides words, lines or paragraphs (general category Z). -/
def isSeparator (c : Char) : Bool :=
  let n := c.toNat
  n == 0x20 || n == 0xa0 || n == 0x1680 || (0x2000 ≤ n && n ≤ 0x200a) || n == 0x2028 ||
    n == 0x2029 || n == 0x202f || n == 0x205f || n == 0x3000

/-- The character is a control, a format character, a private one or an unassigned one. -/
def isControl (c : Char) : Bool :=
  !isPrintable c && !isSeparator c

end LoxLang.Text

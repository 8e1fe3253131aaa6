import LoxLang.Yaml.Plain
import LoxLang.Yaml.Token.Scalar

/-! The written forms of a YAML scalar: plain, in single quotes with a quote written twice, in double
quotes with escapes, and as a literal block when there are line feeds in it. A text is written in the
plainest form that reads back as the same string. All but blocks are folded: where a line is long
enough, it is broken at the next blank. -/
namespace LoxLang.Yaml

/-- Lines are broken behind this column. -/
def bestWidth : Nat := 80

def inset : List Char := [' ', ' ']

/-- The character may stand in a scalar that is not in double quotes. -/
def isPlainChar (c : Char) : Bool :=
  let n := c.toNat
  n == 0x0a || (0x20 ≤ n && n ≤ 0x7e) || (0xa0 ≤ n && n ≤ 0xfffd && n != 0xfeff)

def beginsPlain : List Char → Bool
  | [] => false
  | c :: rest =>
    if c == '-' || c == '?' || c == ':' then !endsToken rest
    else !isIndicator c && !isBlank c

/-- No colon is followed by a blank or the end, and no hash by a blank before it, where `afterBlank`
tells whether a blank comes before the text. -/
def staysPlain (afterBlank : Bool) : List Char → Bool
  | [] => true
  | c :: rest =>
    !(c == ':' && endsToken rest) && !(c == '#' && afterBlank) && staysPlain (isBlank c) rest

/-- A text that begins like a marker of documents. -/
def resemblesMarker : List Char → Bool
  | '-' :: '-' :: '-' :: _ | '.' :: '.' :: '.' :: _ => true
  | _ => false

def plainAllowed (text : List Char) : Bool :=
  beginsPlain text && !resemblesMarker text && staysPlain false text &&
    text.getLast? != some ' ' && text.all isPlainChar && !text.any isBreak

/-- No blank stands before a break. -/
def breaksClean : List Char → Bool
  | ' ' :: c :: rest => !isBreak c && breaksClean (c :: rest)
  | _ :: rest => breaksClean rest
  | [] => true

/-- No blank stands after a break. -/
def linesClean : List Char → Bool
  | b :: c :: rest => !(isBreak b && c == ' ') && linesClean (c :: rest)
  | _ => true

def singleAllowed (text : List Char) : Bool :=
  text.all isPlainChar && breaksClean text && linesClean text

def literalAllowed (text : List Char) : Bool :=
  text.all isPlainChar && breaksClean text && text.getLast? != some ' '

/-- The plain text would be read as something else than a string. -/
def looksTyped (text : List Char) : Bool :=
  (match Plain.resolve true text with
    | .str => false
    | _ => true) || isSexagesimal text

/-! Folding. -/

/-- The text, each character written by `write`, from the given column on and after the character
`before`. A single blank behind the best width becomes a line break, but not at the ends of the text.
After a break in the text itself the next line is set in. -/
def folded (write : Char → List Char) (column : Nat) (before : Option Char) : List Char → List Char
  | [] => []
  | c :: rest =>
    if c == ' ' then
      if bestWidth < column && before.any (· != ' ') && rest.head?.any (· != ' ') then
        '\n' :: inset ++ folded write inset.length (some c) rest
      else c :: folded write (column + 1) (some c) rest
    else if isBreak c then c :: folded write 0 (some c) rest
    else if before.any isBreak then
      inset ++ write c ++ folded write (inset.length + (write c).length) (some c) rest
    else write c ++ folded write (column + (write c).length) (some c) rest

def plainText (column : Nat) (text : List Char) : List Char :=
  folded ([·]) column none text

/-- Single quotes keep every character but the quote as it is. -/
def singleQuoted (column : Nat) (text : List Char) : List Char :=
  '\'' :: folded (fun c => if c == '\'' then ['\'', '\''] else [c]) (column + 1) none text ++ ['\'']

def hexDigits (width value : Nat) : List Char :=
  let digits := (Nat.toDigits 16 value).map Char.toUpper
  List.replicate (width - digits.length) '0' ++ digits

def escaped (c : Char) : List Char :=
  match escapes.find? (·.2 == c) with
  | some (letter, _) => ['\\', letter]
  | none =>
    let n := c.toNat
    if n ≤ 0xff then '\\' :: 'x' :: hexDigits 2 n
    else if n ≤ 0xffff then '\\' :: 'u' :: hexDigits 4 n
    else '\\' :: 'U' :: hexDigits 8 n

def isDirect (c : Char) : Bool :=
  isPlainChar c && !isBreak c && c != '"' && c != '\\'

/-- The text between double quotes, from the given column on and after the character `before`. A blank
behind the best width becomes a line break unless it follows another one or stands at an end of the
text; a blank that comes after the break is then escaped. -/
def foldedEscaped (column : Nat) (before : Option Char) : List Char → List Char
  | [] => []
  | c :: rest =>
    if c == ' ' then
      if bestWidth < column && before.any (· != ' ') && !rest.isEmpty then
        let guard := if rest.head? == some ' ' then ['\\'] else []
        '\n' :: inset ++ guard ++ foldedEscaped (inset.length + guard.length) (some c) rest
      else c :: foldedEscaped (column + 1) (some c) rest
    else
      let text := if isDirect c then [c] else escaped c
      text ++ foldedEscaped (column + text.length) (some c) rest

/-- A text in double quotes. One that begins with a mark of the byte order has all its characters
escaped. -/
def doubleQuoted (column : Nat) (text : List Char) : List Char :=
  let body :=
    if text.head? == some '\ufeff' then text.flatMap escaped else foldedEscaped (column + 1) none text
  '"' :: body ++ ['"']

/-! Blocks. -/

/-- Lines of a block, set in, where `atStart` tells whether the text begins a line. -/
def blockText (atStart : Bool) : List Char → List Char
  | [] => []
  | c :: rest =>
    if isBreak c then c :: blockText true rest
    else (if atStart then inset else []) ++ c :: blockText false rest

def chompingSign (text : List Char) : List Char :=
  match text.reverse with
  | last :: before =>
    if !isBreak last then ['-']
    else
      match before with
      | [] => ['+']
      | c :: _ => if isBreak c then ['+'] else []
  | [] => ['-']

/-- The literal block: a head, and the lines. If the first of them begins with a blank or is empty, the
head says how far they are set in. -/
def literalBlock (text : List Char) : List Char :=
  let width := if text.head?.any fun c => c == ' ' || isBreak c then ['2'] else []
  '|' :: width ++ chompingSign text ++ '\n' :: blockText true text

/-- The written form of a string value from the given column to the end of its last line. A block that
ends in a line break ends the line with it. -/
def writtenLine (column : Nat) (text : List Char) : List Char :=
  if text.contains '\n' then
    if literalAllowed text then
      literalBlock text ++ (if text.getLast?.any isBreak then [] else ['\n'])
    else doubleQuoted column text ++ ['\n']
  else
    let scalar :=
      if looksTyped text then doubleQuoted column text
      else if plainAllowed text then plainText column text
      else if singleAllowed text then singleQuoted column text
      else doubleQuoted column text
    scalar ++ ['\n']

end LoxLang.Yaml

/-! Classes of characters in YAML texts. -/
namespace LoxLang.Yaml

def isBlank (c : Char) : Bool := c == ' ' || c == '\t'

/-- Line breaks, those beyond the usual ones included. -/
def isBreak (c : Char) : Bool :=
  c == '\n' || c == '\r' || c == '\u0085' || c == '\u2028' || c == '\u2029'

/-- The break that counts for the one that is written: all but the two separators are line feeds. -/
def plainBreak (c : Char) : Char :=
  if c == '\u2028' || c == '\u2029' then c else '\n'

def isReadable (c : Char) : Bool :=
  let n := c.toNat
  c == '\t' || c == '\n' || c == '\r' || (0x20 ≤ n && n ≤ 0x7e) || n == 0x85 ||
    (0xa0 ≤ n && n ≤ 0xfffd) || 0x10000 ≤ n

/-- Characters of the names of anchors, directives and tag handles. -/
def isNameChar (c : Char) : Bool :=
  c.isAlphanum || c == '_' || c == '-'

/-- The text is over, or a blank or a line break follows. -/
def endsToken : List Char → Bool
  | [] => true
  | c :: _ => isBlank c || isBreak c

/-- The text begins with a marker of documents, three dashes or three points by themselves. -/
def startsDocument : List Char → Bool
  | '-' :: '-' :: '-' :: rest | '.' :: '.' :: '.' :: rest => endsToken rest
  | _ => false

/-- Characters that a plain scalar cannot begin with. -/
def isIndicator (c : Char) : Bool :=
  ['#', ',', '[', ']', '\x7b', '\x7d', '&', '*', '!', '|', '>', '\'', '"', '%', '@', '\x60'].contains c

/-- Characters that end a plain scalar inside of brackets. -/
def endsFlowScalar (c : Char) : Bool :=
  [',', '?', '[', ']', '\x7b', '\x7d'].contains c

/-- The text behind the end of a line, where at most blanks and a comment stand before that. -/
def skipLineEnd? (text : List Char) : Option (List Char) :=
  let rest := text.dropWhile isBlank
  let rest := if rest.head? == some '#' then rest.dropWhile (!isBreak ·) else rest
  match rest with
  | [] => some []
  | '\r' :: '\n' :: rest => some rest
  | c :: rest => if isBreak c then some rest else none

end LoxLang.Yaml

import LoxLang.Schema.Lexeme

/-! The words of Go declarations: names, keywords, literals, marks and comments, with the lines that
they stand on. Where a line ends after a word that can end a declaration, a semicolon is added. -/
namespace LoxLang.Schema.Layout

inductive WordKind where
  | name
  | keyword
  | number
  | quoted
  | mark
  | comment
deriving DecidableEq, Inhabited, Repr

structure Word where
  kind : WordKind
  text : String
  line : Nat
  lastLine : Nat
  /-- Comments before the word on the same line. -/
  lead : String := ""
deriving DecidableEq, Inhabited, Repr

def keywords : List String := [
  "break", "case", "chan", "const", "continue", "default", "defer", "else", "fallthrough", "for", "func",
  "go", "goto", "if", "import", "interface", "map", "package", "range", "return", "select", "struct",
  "switch", "type", "var"]

/-- Marks, the longer ones before those that they begin with. -/
def marks : List String := [
  "&^=", "<<=", ">>=", "...", "&&", "||", "<-", "++", "--", "==", "!=", "<=", ">=", ":=", "+=", "-=",
  "*=", "/=", "%=", "&=", "|=", "^=", "<<", ">>", "&^", "+", "-", "*", "/", "%", "&", "|", "^", "<",
  ">", "=", "!", "~", "(", ")", "[", "]", "\x7b", "\x7d", ",", ";", ".", ":"]

namespace Word

/-- A declaration can end after the word. -/
def endsLine (w : Word) : Bool :=
  match w.kind with
  | .name | .number | .quoted => true
  | .keyword => ["break", "continue", "fallthrough", "return"].contains w.text
  | .mark => ["++", "--", ")", "]", "\x7d"].contains w.text
  | .comment => false

end Word

/-- The rest of a number, where `before` is the character before it. A sign belongs to it after the
mark of an exponent. -/
def cutNumber (hexadecimal : Bool) (before : Char) : List Char → List Char × List Char
  | [] => ([], [])
  | c :: rest =>
    let exponent := if hexadecimal then before == 'p' || before == 'P' else before == 'e' || before == 'E'
    if c.isAlphanum || c == '_' || c == '.' || ((c == '+' || c == '-') && exponent) then
      let (taken, left) := cutNumber hexadecimal c rest
      (c :: taken, left)
    else ([], c :: rest)

def cutComment? (line : Bool) (rest : List Char) : Option (List Char × List Char) :=
  if line then some (rest.takeWhile (· != '\n'), rest.dropWhile (· != '\n'))
  else (afterBlock? rest).map fun left => (rest.take (rest.length - left.length), left)

/-- The word that begins with `c`, where `rest` comes after it, and what follows the word. -/
def cutWord? (c : Char) (rest : List Char) : Option (WordKind × List Char × List Char) :=
  if Text.startsWord c then
    let text := c :: rest.takeWhile continuesIdentifier
    let kind := if keywords.contains (String.ofList text) then .keyword else .name
    some (kind, text, rest.dropWhile continuesIdentifier)
  else if c.isDigit || (c == '.' && (rest.head?.map Char.isDigit).getD false) then
    let hexadecimal := c == '0' && (rest.head? == some 'x' || rest.head? == some 'X')
    let (taken, left) := cutNumber hexadecimal c rest
    some (.number, c :: taken, left)
  else if c == '"' || c == '\'' then
    (quotedSpan? c rest).map fun (span, left) => (.quoted, c :: span ++ [c], left)
  else if c == '\x60' then
    match rest.dropWhile (· != c) with
    | [] => none
    | _ :: left => some (.quoted, c :: (rest.takeWhile (· != c)).filter (· != '\r') ++ [c], left)
  else
    match c, rest with
    | '/', '/' :: more => (cutComment? true more).map fun (text, left) => (.comment, c :: '/' :: text, left)
    | '/', '*' :: more => (cutComment? false more).map fun (text, left) => (.comment, c :: '*' :: text, left)
    | _, _ =>
      (marks.find? fun mark => mark.toList.isPrefixOf (c :: rest)).map fun mark =>
        (.mark, mark.toList, (c :: rest).drop mark.length)

def endsHere (text : List Char) : Bool :=
  match text.dropWhile fun c => c == ' ' || c == '\t' || c == '\r' with
  | [] => true
  | c :: _ => c == '\n'

def semicolon (line : Nat) : Word :=
  { kind := .mark, text := ";", line, lastLine := line }

/-- The words of a text that begins on the given line, where `ended` tells whether a line end would add a
semicolon. At most `fuel` characters and words are looked at. -/
def words? : (fuel line : Nat) → (ended : Bool) → List Char → Option (List Word)
  | 0, _, _, _ => none
  | fuel + 1, line, ended, text =>
    let stop := if ended then [semicolon line] else []
    match text with
    | [] => some stop
    | '\n' :: rest => (words? fuel (line + 1) false rest).map (stop ++ ·)
    | c :: rest =>
      if c == ' ' || c == '\t' || c == '\r' then words? fuel line ended rest
      else do
        let (kind, text, left) ← cutWord? c rest
        let lastLine := line + text.count '\n'
        let word : Word := { kind, text := String.ofList text, line, lastLine }
        if kind == .comment then
          if line < lastLine || endsHere left then
            let more ← words? fuel lastLine false left
            return stop ++ word :: more
          else
            let more ← words? fuel lastLine ended left
            return word :: more
        else
          let more ← words? fuel lastLine word.endsLine left
          return word :: more

/-- Puts comments that stand before another word of their line into that word. -/
def attachComments : List Word → List Word
  | [] => []
  | word :: rest =>
    match attachComments rest with
    | [] => [word]
    | next :: more =>
      if word.kind == .comment && next.kind != .comment && word.lastLine == next.line &&
          word.line == word.lastLine then
        let lead := if next.lead == "" then word.text else word.text ++ " " ++ next.lead
        { next with lead } :: more
      else word :: next :: more

end LoxLang.Schema.Layout

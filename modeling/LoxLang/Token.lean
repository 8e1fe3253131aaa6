import LoxLang.Value

/-! Tokens of the language: their kinds, their places in the source, and the texts that describe
them. A kind is one of a fixed set; `other` holds the number of a kind outside it, which only
tokens made by hand can have. -/
namespace LoxLang

inductive TokenKind where
  | eof
  | leftParen | rightParen | leftBrace | rightBrace
  | comma | dot | minus | plus | semicolon | slash | star
  | bang | bangEqual | equal | equalEqual
  | greater | greaterEqual | less | lessEqual
  | identifier | string | number
  | andWord | classWord | elseWord | falseWord | forWord | funWord | ifWord | nilWord | orWord
  | printWord | returnWord | superWord | thisWord | trueWord | varWord | whileWord
  | other (code : Int)
deriving DecidableEq, Inhabited, Repr

namespace TokenKind

/-- The kinds in the order of their numbers, each with its name. -/
def names : List (TokenKind × String) := [
  (eof, "EOF"),
  (leftParen, "LPAREN"), (rightParen, "RPAREN"), (leftBrace, "LBRACKET"),
  (rightBrace, "RBRACKET"), (comma, "COMMA"), (dot, "PERIOD"), (minus, "MINUS"), (plus, "PLUS"),
  (semicolon, "EOS"), (slash, "SLASH"), (star, "STAR"),
  (bang, "BANG"), (bangEqual, "BANG_EQUALS"), (equal, "EQUALS"), (equalEqual, "EQUALS_EQUALS"),
  (greater, "GREATER"), (greaterEqual, "GREATER_EQUALS"), (less, "LESS"),
  (lessEqual, "LESS_EQUALS"),
  (identifier, "IDENT"), (string, "STRING"), (number, "NUMBER"),
  (andWord, "AND"), (classWord, "CLASS"), (elseWord, "ELSE"), (falseWord, "FALSE"),
  (forWord, "FOR"), (funWord, "FUN"), (ifWord, "IF"), (nilWord, "NIL"), (orWord, "OR"),
  (printWord, "PRINT"), (returnWord, "RETURN"), (superWord, "SUPER"), (thisWord, "THIS"),
  (trueWord, "TRUE"), (varWord, "VAR"), (whileWord, "WHILE")]

def ofCode (code : Int) : TokenKind :=
  match code with
  | .ofNat n => (names[n]?.map Prod.fst).getD (other code)
  | .negSucc _ => other code

def name (kind : TokenKind) : String :=
  match kind with
  | other code => s!"TokenKind({code})"
  | _ => (names.lookup kind).getD ""

/-- The reserved words. Any other row of identifier characters is an identifier. -/
def keywords : List (String × TokenKind) := [
  ("and", andWord), ("class", classWord), ("else", elseWord), ("false", falseWord),
  ("for", forWord), ("fun", funWord), ("if", ifWord), ("nil", nilWord), ("or", orWord),
  ("print", printWord), ("return", returnWord), ("super", superWord), ("this", thisWord),
  ("true", trueWord), ("var", varWord), ("while", whileWord)]

def keyword? (word : String) : Option TokenKind :=
  keywords.lookup word

def symbols : List (TokenKind × List Char) := [
  (leftParen, ['(']), (rightParen, [')']), (leftBrace, ['\x7b']), (rightBrace, ['\x7d']),
  (comma, [',']), (dot, ['.']), (minus, ['-']), (plus, ['+']), (semicolon, [';']),
  (slash, ['/']), (star, ['*']),
  (bang, ['!']), (bangEqual, ['!', '=']), (equal, ['=']), (equalEqual, ['=', '=']),
  (greater, ['>']), (greaterEqual, ['>', '=']), (less, ['<']), (lessEqual, ['<', '='])]

/-- The characters of a symbol; none for the other kinds. -/
def spelling (kind : TokenKind) : List Char :=
  (symbols.lookup kind).getD []

end TokenKind

/-- A place in a source: the line, counted from one, the number of characters read on it, and the
name of the file, which may be empty. -/
structure Position where
  line : Int := 0
  column : Int := 0
  file : String := ""
deriving DecidableEq, Inhabited, Repr

namespace Position

def start (file : String) : Position :=
  { line := 1, column := 0, file }

def advance (p : Position) (c : Char) : Position :=
  if c = '\n' then { p with line := p.line + 1, column := 0 } else { p with column := p.column + 1 }

def after (p : Position) (text : List Char) : Position :=
  text.foldl advance p

def text (p : Position) : String :=
  let file := if p.file = "" then "<unknown>" else p.file
  s!"{file}:{p.line}:{p.column}"

end Position

/-- A token. The literal is a number or a string for tokens of those kinds, and `nil` for the
others. The default is the token of an absent place: no text, no literal, no position. -/
structure Token where
  kind : TokenKind := .eof
  lexeme : String := ""
  literal : Value := .missing
  position : Position := {}
deriving Inhabited

namespace Token

def line (t : Token) : Int := t.position.line

/-- Kind, lexeme and literal; a token without a literal shows `nil`. -/
def text (t : Token) : String :=
  let literal := (t.literal.text?).getD "nil"
  s!"{t.kind.name} '{t.lexeme}' {literal}"

end Token
end LoxLang

import LoxLang.Diagnostic
import LoxLang.Piece

/-! Scanning: from the pieces of a source to tokens and lexical diagnostics with their places. A
token lies where its first character lies. `scan` reads a whole source; a `Scanner` hands out one
token at a time. The source may end in a failure to read more of it. That does not change the tokens:
it is reported where more input was asked for, and never again after the end. -/
namespace LoxLang

inductive LexCause where
  | unexpectedCharacter (c : Char)
  | invalidNumber (numeral : String)
  | unterminatedString
  | unreadable (reason : String)
deriving Inhabited

namespace LexCause

def message : LexCause → String
  | unexpectedCharacter c => s!"Unexpected character '{c}'."
  | invalidNumber numeral => s!"Invalid number '{numeral}'."
  | unterminatedString => "Unterminated string."
  | unreadable reason => reason

end LexCause

structure LexError where
  position : Position
  cause : LexCause
deriving Inhabited

namespace LexError

def diagnostic (e : LexError) : Diagnostic :=
  .lexical e.position e.cause.message

theorem phase_diagnostic (e : LexError) : e.diagnostic.phase = .lexical :=
  Diagnostic.phase_of_complaint rfl

end LexError

namespace Piece

/-- The kind of the token that a piece makes, with its literal. Blanks, comments and characters
that begin no token make none. -/
def meaning? : Piece → Option (TokenKind × Value)
  | symbol kind => some (kind, .nil)
  | word text => some ((TokenKind.keyword? (String.ofList text)).getD .identifier, .nil)
  | numeral whole fraction => some (.number, .num (Number.ofNumeral whole fraction))
  | string body => some (.string, .str (String.ofList body))
  | _ => none

/-- The place of the piece that begins after `start`: that of its first character. -/
def place (start : Position) (piece : Piece) : Position :=
  start.after (piece.chars.take 1)

def token? (start : Position) (piece : Piece) : Option Token :=
  piece.meaning?.map fun (kind, literal) =>
    { kind, literal, lexeme := String.ofList piece.chars, position := piece.place start }

/-- The complaint, if any, about asking for more input at the end of what could be read. -/
def readFailure (failure : Option String) (position : Position) : List LexError :=
  failure.toList.map fun reason => { position, cause := .unreadable reason }

/-- The complaints about the piece that begins after `start`. A comment and an open string ask for
more input when nothing follows them. -/
def errors (failure : Option String) (start : Position) (last : Bool) (piece : Piece) :
    List LexError :=
  match piece with
  | stray c => [{ position := piece.place start, cause := .unexpectedCharacter c }]
  | numeral whole fraction =>
    if Number.overflows whole fraction then
      [{ position := piece.place start, cause := .invalidNumber (String.ofList piece.chars) }]
    else []
  | comment _ => if last then readFailure failure (start.after piece.chars) else []
  | openString _ =>
    let stop := start.after piece.chars
    readFailure failure stop ++ [{ position := stop, cause := .unterminatedString }]
  | _ => []

end Piece

def endToken (position : Position) : Token :=
  { kind := .eof, literal := .nil, position }

/-- What is left to scan. -/
structure Scanner where
  pieces : List Piece
  position : Position
  /-- Why nothing can be read after the pieces; none if the input just ends there, or if the
  failure has been met. -/
  failure : Option String := none
deriving Inhabited

structure Scanned where
  token : Token
  errors : List LexError
  rest : Scanner
deriving Inhabited

namespace Scanner

def ofSource (file : String) (source : List Char) (failure : Option String) : Scanner :=
  { pieces := LoxLang.pieces source, position := .start file, failure }

/-- The next token, at the end of the input the end token, found among `pieces` that begin after
`position`. -/
def seek (failure : Option String) (position : Position) : List Piece → Scanned
  | [] =>
    { token := endToken position
      errors := Piece.readFailure failure position
      rest := { pieces := [], position } }
  | piece :: rest =>
    let stop := position.after piece.chars
    let errors := piece.errors failure position rest.isEmpty
    match piece, piece.token? position with
    | .openString _, _ => { token := endToken stop, errors, rest := { pieces := [], position := stop } }
    | _, some token => { token, errors, rest := { pieces := rest, position := stop, failure } }
    | _, none =>
      let found := seek failure stop rest
      { found with errors := errors ++ found.errors }

/-- The next token. After the end token it comes again and again. -/
def next (s : Scanner) : Scanned :=
  seek s.failure s.position s.pieces

/-- All tokens of `pieces` that begin after `position`, and all complaints about them. -/
def collect (failure : Option String) (position : Position) :
    List Piece → List Token × List LexError
  | [] => ([endToken position], Piece.readFailure failure position)
  | piece :: rest =>
    let stop := position.after piece.chars
    let errors := piece.errors failure position rest.isEmpty
    match piece with
    | .openString _ => ([endToken stop], errors)
    | _ =>
      let (tokens, more) := collect failure stop rest
      ((piece.token? position).toList ++ tokens, errors ++ more)

/-- The remaining tokens, of which the last one and no other is the end token. -/
def tokens (s : Scanner) : List Token × List LexError :=
  collect s.failure s.position s.pieces

end Scanner

def scan (file : String) (source : List Char) : List Token × List LexError :=
  (Scanner.ofSource file source none).tokens

end LoxLang

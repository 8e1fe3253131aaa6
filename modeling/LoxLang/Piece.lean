import LoxLang.Text.Letter
import LoxLang.Token

/-! Cutting a source into pieces. Each piece is as long as its kind allows, and the pieces of a
source, put together again, are the source. Places are not looked at here: the `Scanner` adds them. -/
namespace LoxLang

/-- A row of source characters that belongs together. -/
inductive Piece where
  | blank (c : Char)
  /-- The text after the two slashes, up to the end of the line. -/
  | comment (body : List Char)
  /-- A character that begins no token. -/
  | stray (c : Char)
  | symbol (kind : TokenKind)
  | word (text : List Char)
  /-- Digits, and the digits after the point if there is one. -/
  | numeral (whole fraction : List Char)
  | string (body : List Char)
  /-- A string whose closing quote is missing. -/
  | openString (body : List Char)
deriving Inhabited

namespace Piece

def chars : Piece → List Char
  | blank c | stray c => [c]
  | comment body => '/' :: '/' :: body
  | symbol kind => kind.spelling
  | word text => text
  | numeral whole [] => whole
  | numeral whole fraction => whole ++ '.' :: fraction
  | string body => '"' :: body ++ ['"']
  | openString body => '"' :: body

def continuesWord (c : Char) : Bool :=
  Text.startsWord c || c.isDigit

/-- An operator with a longer form that ends in `=`. -/
def cutOperator (short long : TokenKind) : List Char → Piece × List Char
  | '=' :: rest => (symbol long, rest)
  | rest => (symbol short, rest)

/-- After a slash: a second one begins a comment. -/
def cutSlash : List Char → Piece × List Char
  | '/' :: rest => (comment (rest.takeWhile (· != '\n')), rest.dropWhile (· != '\n'))
  | rest => (symbol .slash, rest)

/-- After a quote: the string goes on to the next one. -/
def cutString (input : List Char) : Piece × List Char :=
  match input.dropWhile (· != '"') with
  | [] => (openString input, [])
  | _ :: rest => (string (input.takeWhile (· != '"')), rest)

/-- A point belongs to a numeral only if a digit follows it. -/
def cutNumeral (input : List Char) : Piece × List Char :=
  let whole := input.takeWhile Char.isDigit
  match input.dropWhile Char.isDigit with
  | '.' :: digit :: rest =>
    if digit.isDigit then
      (numeral whole (digit :: rest.takeWhile Char.isDigit), rest.dropWhile Char.isDigit)
    else (numeral whole [], '.' :: digit :: rest)
  | rest => (numeral whole [], rest)

def cutWord (input : List Char) : Piece × List Char :=
  (word (input.takeWhile continuesWord), input.dropWhile continuesWord)

/-- The first piece of a source that begins with `c`, and what comes after it. -/
def cut (c : Char) (rest : List Char) : Piece × List Char :=
  match c with
  | ' ' | '\t' | '\r' | '\n' => (blank c, rest)
  | '(' => (symbol .leftParen, rest)
  | ')' => (symbol .rightParen, rest)
  | '\x7b' => (symbol .leftBrace, rest)
  | '\x7d' => (symbol .rightBrace, rest)
  | ',' => (symbol .comma, rest)
  | '.' => (symbol .dot, rest)
  | '-' => (symbol .minus, rest)
  | '+' => (symbol .plus, rest)
  | ';' => (symbol .semicolon, rest)
  | '*' => (symbol .star, rest)
  | '!' => cutOperator .bang .bangEqual rest
  | '=' => cutOperator .equal .equalEqual rest
  | '<' => cutOperator .less .lessEqual rest
  | '>' => cutOperator .greater .greaterEqual rest
  | '/' => cutSlash rest
  | '"' => cutString rest
  | _ =>
    if c.isDigit then cutNumeral (c :: rest)
    else if Text.startsWord c then cutWord (c :: rest)
    else (stray c, rest)

theorem dropWhile_length_le (p : Char → Bool) (input : List Char) :
    (input.dropWhile p).length ≤ input.length :=
  (List.dropWhile_suffix p).length_le

theorem cutOperator_length (short long : TokenKind) (rest : List Char) :
    (cutOperator short long rest).2.length ≤ rest.length := by
  unfold cutOperator
  split <;> simp

theorem cutSlash_length (rest : List Char) : (cutSlash rest).2.length ≤ rest.length := by
  unfold cutSlash
  split
  · exact Nat.le_succ_of_le (dropWhile_length_le _ _)
  · exact Nat.le_refl _

theorem cutString_length (input : List Char) : (cutString input).2.length ≤ input.length := by
  have dropped := dropWhile_length_le (· != '"') input
  unfold cutString
  split
  · exact Nat.zero_le _
  · rename_i rest behind
    rw [behind] at dropped
    exact Nat.le_of_succ_le dropped

theorem cutNumeral_length (c : Char) (rest : List Char) (digit : c.isDigit = true) :
    (cutNumeral (c :: rest)).2.length ≤ rest.length := by
  have dropped := dropWhile_length_le Char.isDigit rest
  unfold cutNumeral
  rw [List.dropWhile_cons_of_pos digit]
  split
  · rename_i next more behind
    rw [behind] at dropped
    split
    · exact Nat.le_trans (dropWhile_length_le Char.isDigit more) (Nat.le_of_succ_le (Nat.le_of_succ_le dropped))
    · exact dropped
  · exact dropped

theorem cutWord_length (c : Char) (rest : List Char) (starts : Text.startsWord c = true) :
    (cutWord (c :: rest)).2.length ≤ rest.length := by
  have continues : continuesWord c = true := by rw [continuesWord, starts, Bool.true_or]
  rw [cutWord, List.dropWhile_cons_of_pos continues]
  exact dropWhile_length_le continuesWord rest

/-- Every piece takes at least one character. -/
theorem cut_length (c : Char) (rest : List Char) : (cut c rest).2.length ≤ rest.length := by
  unfold cut
  split <;> try exact Nat.le_refl _
  any_goals apply cutOperator_length
  · apply cutSlash_length
  · apply cutString_length
  · split
    · rename_i digit
      exact cutNumeral_length c rest digit
    · split
      · rename_i starts
        exact cutWord_length c rest starts
      · exact Nat.le_refl _

end Piece

def pieces : List Char → List Piece
  | [] => []
  | c :: rest => (Piece.cut c rest).1 :: pieces (Piece.cut c rest).2
termination_by source => source.length
decreasing_by exact Nat.lt_succ_of_le (Piece.cut_length c rest)

end LoxLang

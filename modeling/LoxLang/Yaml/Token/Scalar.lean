import LoxLang.Yaml.Character
import LoxLang.Yaml.Numeral

/-! Reading scalars: plain ones, those in quotes, and blocks. Each function gives the text of the scalar
and what follows it. Scalars may go over several lines, and the break between two lines then folds into
a blank, except in literal blocks. -/
namespace LoxLang.Yaml

/-- What stands between two words of a scalar: blanks on one line, or line breaks with the blanks
around them. -/
structure Gap where
  /-- The blanks, as long as no line break has come. -/
  blanks : List Char := []
  /-- A line break has come. -/
  broken : Bool := false
  /-- The first break, unless it was escaped. -/
  first : Option Char := none
  /-- The breaks after the first one. -/
  more : List Char := []
  /-- How far the last line is set in. -/
  column : Nat := 0
deriving DecidableEq, Inhabited, Repr

namespace Gap

/-- After a blank, which counts only before the first break. -/
def blank (g : Gap) (c : Char) : Gap :=
  if g.broken then { g with column := g.column + 1 } else { g with blanks := g.blanks ++ [c] }

/-- After a line break, which makes the blanks before it vanish. -/
def lineBreak (g : Gap) (c : Char) : Gap :=
  if g.broken then { g with more := g.more ++ [c], column := 0 }
  else { broken := true, first := some c }

/-- The gap that an escaped line break opens. -/
def escaped : Gap := { broken := true }

def isEmpty (g : Gap) : Bool :=
  !g.broken && g.blanks.isEmpty

/-- What comes after the gap stands at the beginning of a line. -/
def atLineStart (g : Gap) : Bool :=
  g.broken && g.column == 0

/-- What the gap stands for: a single break is a blank, and of several ones the first vanishes. -/
def text (g : Gap) : List Char :=
  if g.broken then
    match g.first with
    | some '\n' => if g.more.isEmpty then [' '] else g.more
    | some c => c :: g.more
    | none => g.more
  else g.blanks

end Gap

/-! Plain scalars. -/

/-- A character that cannot belong to a plain scalar comes: a colon by itself, or in brackets one that
has a meaning there. -/
def endsPlain (flow : Bool) : List Char → Bool
  | [] => true
  | c :: rest => (c == ':' && endsToken rest) || (flow && endsFlowScalar c)

/-- After the gap something else comes than a word of the same plain scalar: a line that is not set in
as far as `margin`, a marker of documents, or a comment. -/
def Gap.endsPlain (g : Gap) (flow : Bool) (margin : Nat) (rest : List Char) : Bool :=
  (g.broken && !flow && g.column < margin) || (g.atLineStart && startsDocument rest) ||
    (!g.isEmpty && rest.head? == some '#')

/-- A plain scalar as read: its text, what follows it, and whether line breaks were passed at its
end. -/
structure PlainScalar where
  text : List Char
  rest : List Char
  broken : Bool
deriving DecidableEq, Inhabited, Repr

/-- The rest of a plain scalar after `gap`. It does not go on in lines that are set in by less than
`margin`, unless it stands in brackets, and no tab may do for blanks before that column. -/
def readPlain? (flow : Bool) (margin : Nat) (gap : Gap) : List Char → Option PlainScalar
  | [] => some { text := [], rest := [], broken := gap.broken }
  | '\r' :: '\n' :: rest => readPlain? flow margin (gap.lineBreak '\n') rest
  | c :: rest =>
    if isBlank c then
      if gap.broken && gap.column < margin && c == '\t' then none
      else readPlain? flow margin (gap.blank c) rest
    else if isBreak c then readPlain? flow margin (gap.lineBreak (plainBreak c)) rest
    else if gap.endsPlain flow margin (c :: rest) || endsPlain flow (c :: rest) then
      some { text := [], rest := c :: rest, broken := gap.broken }
    else
      (readPlain? flow margin {} rest).map fun scalar =>
        { scalar with text := gap.text ++ c :: scalar.text }

/-! Scalars in quotes. -/

/-- The rest of a scalar in single quotes after `gap`. A quote in it is written twice. -/
def readSingle? (gap : Gap) : List Char → Option (List Char × List Char)
  | [] => none
  | '\r' :: '\n' :: rest => readSingle? (gap.lineBreak '\n') rest
  | c :: rest =>
    if isBlank c then readSingle? (gap.blank c) rest
    else if isBreak c then readSingle? (gap.lineBreak (plainBreak c)) rest
    else if gap.atLineStart && startsDocument (c :: rest) then none
    else if c == '\'' then
      match rest with
      | '\'' :: rest =>
        (readSingle? {} rest).map fun (text, left) => (gap.text ++ '\'' :: text, left)
      | _ => some (gap.text, rest)
    else (readSingle? {} rest).map fun (text, left) => (gap.text ++ c :: text, left)

def escapes : List (Char × Char) := [
  ('0', '\x00'), ('a', '\x07'), ('b', '\x08'), ('t', '\t'), ('n', '\n'), ('v', '\x0b'),
  ('f', '\x0c'), ('r', '\r'), ('e', '\x1b'), ('"', '"'), ('\\', '\\'), ('N', '\u0085'),
  ('_', '\u00a0'), ('L', '\u2028'), ('P', '\u2029')]

/-- The letters of escapes that are read besides those written stand for themselves. -/
def letterEscape? (letter : Char) : Option Char :=
  if letter == ' ' || letter == '\t' || letter == '\'' then some letter
  else (escapes.find? (·.1 == letter)).map Prod.snd

def escapeWidth (letter : Char) : Nat :=
  if letter == 'x' then 2 else if letter == 'u' then 4 else if letter == 'U' then 8 else 0

def charOfHex? (digits : List Char) : Option Char := do
  let n ← naturalIn? 16 digits
  if n.isValidChar then some (Char.ofNat n) else none

def escape? (letter : Char) (rest : List Char) : Option Char :=
  let width := escapeWidth letter
  if width == 0 then letterEscape? letter
  else if (rest.take width).length == width then charOfHex? (rest.take width)
  else none

/-- The rest of a scalar in double quotes after `gap`. An escaped line break vanishes with the blanks
after it. -/
def readDouble? (gap : Gap) : List Char → Option (List Char × List Char)
  | [] => none
  | '\r' :: '\n' :: rest => readDouble? (gap.lineBreak '\n') rest
  | c :: rest =>
    if isBlank c then readDouble? (gap.blank c) rest
    else if isBreak c then readDouble? (gap.lineBreak (plainBreak c)) rest
    else if gap.atLineStart && startsDocument (c :: rest) then none
    else if c == '"' then some (gap.text, rest)
    else if c == '\\' then
      match rest with
      | [] => none
      | '\r' :: '\n' :: rest =>
        (readDouble? .escaped rest).map fun (text, left) => (gap.text ++ text, left)
      | letter :: rest =>
        if isBreak letter then
          (readDouble? .escaped rest).map fun (text, left) => (gap.text ++ text, left)
        else
          match escape? letter rest with
          | none => none
          | some c =>
            (readDouble? {} (rest.drop (escapeWidth letter))).map fun (text, left) =>
              (gap.text ++ c :: text, left)
    else (readDouble? {} rest).map fun (text, left) => (gap.text ++ c :: text, left)
termination_by text => text.length
decreasing_by all_goals simp only [List.length_drop, List.length_cons]; omega

/-! Blocks. -/

inductive Chomping where
  | strip
  | clip
  | keep
deriving DecidableEq, Inhabited, Repr

def Chomping.ofSign? : Char → Option Chomping
  | '+' => some keep
  | '-' => some strip
  | _ => none

def cutChomping : List Char → Chomping × List Char
  | [] => (.clip, [])
  | c :: rest =>
    match Chomping.ofSign? c with
    | some chomping => (chomping, rest)
    | none => (.clip, c :: rest)

/-- The digit that says how far a block is set in, or zero if there is none, and what follows. The
digit itself is not zero. -/
def cutIncrement? : List Char → Option (Nat × List Char)
  | [] => some (0, [])
  | c :: rest =>
    if c == '0' then none
    else if c.isDigit then some (c.toNat - '0'.toNat, rest)
    else some (0, c :: rest)

/-- The head of a block: its chomping, how far it is set in, and the lines after it. -/
def blockHead? (text : List Char) : Option (Chomping × Nat × List Char) := do
  let (chomping, rest) := cutChomping text
  let (increment, rest) ← cutIncrement? rest
  let (chomping, rest) :=
    if chomping == .clip && increment != 0 then cutChomping rest else (chomping, rest)
  let rest ← skipLineEnd? rest
  return (chomping, increment, rest)

/-- The place where the next line of a block begins: the breaks of the empty lines before it, its
column, and the greatest column of all these lines. -/
structure Indentation where
  breaks : List Char := []
  column : Nat
  greatest : Nat
  rest : List Char
deriving DecidableEq, Inhabited, Repr

/-- Skips the blanks before a line of a block that is set in by `margin`, or by any number if that is
zero, and the empty lines before it. No tab may do for the blanks. -/
def cutIndentation? (margin column greatest : Nat) : List Char → Option Indentation
  | [] => some { column, greatest := max greatest column, rest := [] }
  | '\r' :: '\n' :: rest =>
    (cutIndentation? margin 0 (max greatest column) rest).map fun i => { i with breaks := '\n' :: i.breaks }
  | c :: rest =>
    let inside := margin == 0 || column < margin
    if c == ' ' && inside then cutIndentation? margin (column + 1) greatest rest
    else if c == '\t' && inside then none
    else if isBreak c then
      (cutIndentation? margin 0 (max greatest column) rest).map fun i =>
        { i with breaks := plainBreak c :: i.breaks }
    else some { column, greatest := max greatest column, rest := c :: rest }

def cutBreak : List Char → List Char × List Char
  | [] => ([], [])
  | '\r' :: '\n' :: rest => (['\n'], rest)
  | c :: rest => if isBreak c then ([plainBreak c], rest) else ([], c :: rest)

/-- The lines of a block that come after the break `last`, where the line before that began with a
blank if `blankBefore`. In a folded block a break between two lines that do not begin with a blank
becomes a blank, or vanishes before empty lines. At most `fuel` lines are read. -/
def blockLines? (literal : Bool) (margin : Nat) (chomping : Chomping) :
    (fuel : Nat) → (last : List Char) → (blankBefore : Bool) → Indentation →
    Option (List Char × List Char)
  | 0, _, _, _ => none
  | fuel + 1, last, blankBefore, place =>
    match place.rest with
    | c :: _ =>
      if place.column == margin then do
        let folds := !literal && !blankBefore && !isBlank c && last == ['\n']
        let join := if folds then (if place.breaks.isEmpty then [' '] else []) else last
        let line := place.rest.takeWhile (!isBreak ·)
        let (next, rest) := cutBreak (place.rest.dropWhile (!isBreak ·))
        let place' ← cutIndentation? margin 0 0 rest
        let (text, left) ← blockLines? literal margin chomping fuel next (isBlank c) place'
        return (join ++ place.breaks ++ line ++ text, left)
      else some (ending last place)
    | [] => some (ending last place)
where
  /-- The breaks at the end that count. -/
  ending (last : List Char) (place : Indentation) : List Char × List Char :=
    match chomping with
    | .strip => ([], place.rest)
    | .clip => (last, place.rest)
    | .keep => (last ++ place.breaks, place.rest)

/-- A block after its mark, where `margin` is the column that the lines of the enclosing block reach.
The head may say how far the lines are set in; otherwise the first of them shows it. -/
def readBlock? (literal : Bool) (margin : Nat) (text : List Char) :
    Option (List Char × List Char) := do
  let (chomping, increment, rest) ← blockHead? text
  let given := if increment == 0 then 0 else margin - 1 + increment
  let place ← cutIndentation? given 0 0 rest
  let inset := if given == 0 then max place.greatest (max margin 1) else given
  blockLines? literal inset chomping (rest.length + 1) [] false place

end LoxLang.Yaml

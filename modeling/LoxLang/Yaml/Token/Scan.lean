import LoxLang.Yaml.Token
import LoxLang.Yaml.Token.Position
import LoxLang.Yaml.Token.Property
import LoxLang.Yaml.Token.Scalar

/-! Cutting a text into tokens. Indentation gives the tokens at which blocks begin and end, and a colon
makes a key of what stands before it: the token for the key is then put in front of that. -/
namespace LoxLang.Yaml

/-- A place where a key may turn out to begin. -/
structure KeyPlace where
  /-- The number of tokens before it. -/
  count : Nat
  position : Position
  /-- Nothing but a key can stand there. -/
  required : Bool
deriving DecidableEq, Inhabited, Repr

/-- How far the text has been cut. -/
structure Scan where
  cursor : Cursor
  /-- The tokens so far, the newest one first. -/
  tokens : List Token := []
  /-- The least column of what belongs to the innermost block. The block itself stands at the column
  before that; outside of all blocks it is zero. -/
  margin : Nat := 0
  /-- The margins of the blocks around that one. -/
  margins : List Nat := []
  /-- A key may begin at the next token. -/
  keyAllowed : Bool := true
  /-- The place of a key for every bracket that is open, the innermost one first, and for the text
  outside of them. -/
  keys : List (Option KeyPlace) := [none]
deriving Inhabited

namespace Scan

/-- The cursor stands between brackets. -/
def inFlow (s : Scan) : Bool :=
  1 < s.keys.length

def position (s : Scan) : Position := s.cursor.position

def rest (s : Scan) : List Char := s.cursor.rest

def column (s : Scan) : Nat := s.position.column

def goTo (s : Scan) (rest : List Char) : Scan :=
  { s with cursor := s.cursor.goTo rest }

def push (s : Scan) (line : Nat) (lexeme : Lexeme) : Scan :=
  { s with tokens := { lexeme, line } :: s.tokens }

def take (s : Scan) (lexeme : Lexeme) (rest : List Char) : Scan :=
  (s.push s.position.line lexeme).goTo rest

/-! Keys. -/

def longestKey : Nat := 1024

/-- The place is too far back for a key: it lies on an earlier line, or too many characters ago. -/
def isStale (s : Scan) (place : KeyPlace) : Bool :=
  place.position.line < s.position.line || place.position.index + longestKey < s.position.index

/-- Gives up the places that are too far back, unless a key has to stand at one of them. -/
def dropStale? (s : Scan) : Option Scan :=
  if s.keys.any fun key => key.any fun place => place.required && s.isStale place then none
  else some { s with keys := s.keys.map fun key => key.filter fun place => !s.isStale place }

/-- Gives up the place between the innermost brackets, unless a key has to stand there. -/
def dropKey? (s : Scan) : Option Scan :=
  match s.keys with
  | some place :: outer => if place.required then none else some { s with keys := none :: outer }
  | _ => some s

/-- Notes that a key may begin at the cursor, if it may. -/
def markKey? (s : Scan) : Option Scan :=
  if s.keyAllowed then do
    let s ← s.dropKey?
    let place : KeyPlace := {
      count := s.tokens.length, position := s.position
      required := !s.inFlow && s.margin == s.column + 1 }
    return { s with keys := some place :: s.keys.drop 1 }
  else some s

/-- Puts tokens in front of all but the first `count` ones. -/
def insert (s : Scan) (count : Nat) (line : Nat) (lexemes : List Lexeme) : Scan :=
  let newer := s.tokens.length - count
  let inserted := lexemes.reverse.map fun lexeme => { lexeme, line : Token }
  { s with tokens := s.tokens.take newer ++ inserted ++ s.tokens.drop newer }

/-! Blocks. -/

/-- Opens a block at a column if it lies beyond that of the innermost block. -/
def opensBlock (s : Scan) (column : Nat) : Bool :=
  !s.inFlow && s.margin ≤ column

def enterBlock (s : Scan) (column : Nat) : Scan :=
  { s with margin := column + 1, margins := s.margin :: s.margins }

/-- Begins a block at the cursor, unless it has begun before. -/
def beginBlock (s : Scan) (start : Lexeme) : Scan :=
  if s.opensBlock s.column then (s.enterBlock s.column).push s.position.line start else s

/-- Ends the blocks with a margin beyond the given one, where `margins` are those around the
innermost. -/
def endBlocks (line target margin : Nat) (tokens : List Token) : List Nat → Nat × List Nat × List Token
  | [] => (margin, [], tokens)
  | outer :: margins =>
    if target < margin then endBlocks line target outer ({ lexeme := .blockEnd, line } :: tokens) margins
    else (margin, outer :: margins, tokens)

def endBlocksTo (s : Scan) (target : Nat) : Scan :=
  if s.inFlow then s
  else
    let (margin, margins, tokens) := endBlocks s.position.line target s.margin s.tokens s.margins
    { s with margin, margins, tokens }

/-! Single tokens. -/

/-- The text after blanks, comments and line breaks, and whether a key may begin there. Outside of
brackets a new line allows a key, and where a key may begin tabs do not count as blanks. -/
def skipBlanks (flow : Bool) (keyAllowed comment : Bool) : List Char → List Char × Bool
  | [] => ([], keyAllowed)
  | '\r' :: '\n' :: rest => skipBlanks flow (keyAllowed || !flow) false rest
  | c :: rest =>
    if isBreak c then skipBlanks flow (keyAllowed || !flow) false rest
    else if comment || c == ' ' || (c == '\t' && (flow || !keyAllowed)) then
      skipBlanks flow keyAllowed comment rest
    else if c == '#' then skipBlanks flow keyAllowed true rest
    else (c :: rest, keyAllowed)

def toToken (s : Scan) : Scan :=
  let (rest, keyAllowed) := skipBlanks s.inFlow s.keyAllowed false s.rest
  { s.goTo rest with keyAllowed }

def takeEnd? (s : Scan) : Option Scan := do
  let s ← (s.endBlocksTo 0).dropKey?
  return { s.push s.position.line .streamEnd with keyAllowed := false }

def takeMarker? (s : Scan) (lexeme : Lexeme) : Option Scan := do
  let s ← (s.endBlocksTo 0).dropKey?
  return { s.take lexeme (s.rest.drop 3) with keyAllowed := false }

def takeDirective? (s : Scan) (text : List Char) : Option Scan := do
  let s ← (s.endBlocksTo 0).dropKey?
  let (lexeme, rest) ← readDirective? text
  return { s.take lexeme rest with keyAllowed := false }

def takeOpening? (s : Scan) (lexeme : Lexeme) (rest : List Char) : Option Scan := do
  let s ← s.markKey?
  return { s.take lexeme rest with keyAllowed := true, keys := none :: s.keys }

def takeClosing? (s : Scan) (lexeme : Lexeme) (rest : List Char) : Option Scan := do
  let s ← s.dropKey?
  let keys := if s.inFlow then s.keys.drop 1 else s.keys
  return { s.take lexeme rest with keyAllowed := false, keys }

def takeComma? (s : Scan) (rest : List Char) : Option Scan := do
  let s ← s.dropKey?
  return { s.take .flowEntry rest with keyAllowed := true }

/-- A dash begins an item of a block sequence, where a key could begin too. -/
def takeDash? (s : Scan) (rest : List Char) : Option Scan := do
  guard (s.inFlow || s.keyAllowed)
  let s ← (s.beginBlock .blockSequenceStart).dropKey?
  return { s.take .blockEntry rest with keyAllowed := true }

/-- A question mark begins a key of any form. -/
def takeQuestion? (s : Scan) (rest : List Char) : Option Scan := do
  guard (s.inFlow || s.keyAllowed)
  let s ← (s.beginBlock .blockMappingStart).dropKey?
  return { s.take .key rest with keyAllowed := !s.inFlow }

/-- A colon makes a key of what stands at the noted place; without one it follows a key of any
form. -/
def takeColon? (s : Scan) (rest : List Char) : Option Scan := do
  match s.keys with
  | some place :: outer =>
    let s := { s with keys := none :: outer, keyAllowed := false }
    let line := place.position.line
    if s.opensBlock place.position.column then
      let s := s.insert place.count line [.blockMappingStart, .key]
      return (s.enterBlock place.position.column).take .value rest
    else return (s.insert place.count line [.key]).take .value rest
  | _ =>
    guard (s.inFlow || s.keyAllowed)
    return { (s.beginBlock .blockMappingStart).take .value rest with keyAllowed := !s.inFlow }

/-- An anchor, a tag or a scalar in quotes, which may be or begin a key. -/
def takeNode? (s : Scan) (read : Option (Lexeme × List Char)) : Option Scan := do
  let s ← s.markKey?
  let (lexeme, rest) ← read
  return { s.take lexeme rest with keyAllowed := false }

def takeBlock? (s : Scan) (literal : Bool) (text : List Char) : Option Scan := do
  let s ← s.dropKey?
  let (text, rest) ← readBlock? literal s.margin text
  return { s.take (.scalar text false) rest with keyAllowed := true }

/-- A plain scalar. Line breaks at its end allow a key to begin. -/
def takePlain? (s : Scan) : Option Scan := do
  let s ← s.markKey?
  let scalar ← readPlain? s.inFlow s.margin {} s.rest
  return { s.take (.scalar scalar.text true) scalar.rest with keyAllowed := scalar.broken }

def startsPlain (flow : Bool) (c : Char) (rest : List Char) : Bool :=
  if c == '-' then !endsToken rest
  else if c == '?' || c == ':' then !flow && !endsToken rest
  else !isBlank c && !isIndicator c

def takeToken? (s : Scan) (c : Char) (rest : List Char) : Option Scan :=
  let single := endsToken rest
  if s.column == 0 && c == '%' then s.takeDirective? rest
  else if s.column == 0 && startsDocument (c :: rest) then
    s.takeMarker? (if c == '-' then .documentStart else .documentEnd)
  else if c == '[' then s.takeOpening? .flowSequenceStart rest
  else if c == '\x7b' then s.takeOpening? .flowMappingStart rest
  else if c == ']' then s.takeClosing? .flowSequenceEnd rest
  else if c == '\x7d' then s.takeClosing? .flowMappingEnd rest
  else if c == ',' then s.takeComma? rest
  else if c == '-' && single then s.takeDash? rest
  else if c == '?' && (s.inFlow || single) then s.takeQuestion? rest
  else if c == ':' && (s.inFlow || single) then s.takeColon? rest
  else if c == '*' then s.takeNode? ((readAnchor? rest).map fun (name, left) => (.reference name, left))
  else if c == '&' then s.takeNode? ((readAnchor? rest).map fun (name, left) => (.anchor name, left))
  else if c == '!' then
    s.takeNode? ((readTag? (c :: rest)).map fun (handle, name, left) => (.tag handle name, left))
  else if c == '|' && !s.inFlow then s.takeBlock? true rest
  else if c == '>' && !s.inFlow then s.takeBlock? false rest
  else if c == '\'' then
    s.takeNode? ((readSingle? {} rest).map fun (text, left) => (.scalar text false, left))
  else if c == '"' then
    s.takeNode? ((readDouble? {} rest).map fun (text, left) => (.scalar text false, left))
  else if startsPlain s.inFlow c rest then s.takePlain?
  else none

def next? (s : Scan) : Option Scan := do
  let s ← s.toToken.dropStale?
  let s := s.endBlocksTo (s.column + 1)
  match s.rest with
  | [] => s.takeEnd?
  | c :: rest => s.takeToken? c rest

/-- The tokens that are certain, the newest one first: a token where a key may turn out to begin is
not, and neither are those after it. -/
def certain (s : Scan) : List Token :=
  let places := s.keys.filterMap fun key => key.filter fun place => place.required || !s.isStale place
  let count := (places.map (·.count)).foldl min s.tokens.length
  s.tokens.drop (s.tokens.length - count)

/-- Cuts tokens off until the text ends or is wrong, in at most `fuel` steps. -/
def run : (fuel : Nat) → Scan → List Token
  | 0, s => s.certain
  | fuel + 1, s =>
    match s.next? with
    | none => s.certain
    | some s =>
      match s.tokens with
      | { lexeme := .streamEnd, .. } :: _ => s.tokens
      | _ => run fuel s

end Scan

/-- The tokens of a text. They end with that for the end of the text, or where the text is wrong. -/
def tokens (text : List Char) : List Token :=
  (Scan.run (text.length + 1) { cursor := { rest := text } }).reverse

end LoxLang.Yaml

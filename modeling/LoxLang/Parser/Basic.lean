import LoxLang.Parser.Error

/-! Parsers over a list of tokens. A parser sees the tokens that are left, none of which is an end
token, and the end token `stop` that comes after them. It may complain and go on, or complain and
give up; in both cases what it has consumed stays consumed. -/
namespace LoxLang

/-- What a parser answers: its result, or the complaint that it gave up with; all complaints in the
order in which they were made, that one included; and the tokens that are left. -/
structure Reply (α : Type) where
  outcome : Except SyntaxError α
  errors : List SyntaxError
  rest : List Token

def Parser (α : Type) : Type :=
  (stop : Token) → List Token → Reply α

namespace Parser

@[inline]
protected def pure (a : α) : Parser α := fun _ tokens =>
  { outcome := .ok a, errors := [], rest := tokens }

@[inline]
protected def bind (p : Parser α) (f : α → Parser β) : Parser β := fun stop tokens =>
  let first := p stop tokens
  match first.outcome with
  | .error e => { first with outcome := .error e }
  | .ok a =>
    let second := f a stop first.rest
    { second with errors := first.errors ++ second.errors }

instance : Monad Parser where
  pure := Parser.pure
  bind := Parser.bind

def peek : Parser Token := fun stop tokens =>
  { outcome := .ok (tokens.headD stop), errors := [], rest := tokens }

def advance : Parser Unit := fun _ tokens =>
  { outcome := .ok (), errors := [], rest := tokens.tail }

/-- Complains and goes on. -/
def report (e : SyntaxError) : Parser Unit := fun _ tokens =>
  { outcome := .ok (), errors := [e], rest := tokens }

/-- Complains and gives up. -/
def fail (e : SyntaxError) : Parser α := fun _ tokens =>
  { outcome := .error e, errors := [e], rest := tokens }

def check (kind : TokenKind) : Parser Bool := do
  return (← peek).kind == kind

def accept? (kinds : List TokenKind) : Parser (Option Token) := fun _ tokens =>
  match tokens with
  | token :: rest =>
    if kinds.contains token.kind then { outcome := .ok (some token), errors := [], rest }
    else { outcome := .ok none, errors := [], rest := tokens }
  | [] => { outcome := .ok none, errors := [], rest := [] }

def expect (expected : Expectation) : Parser Token := do
  match ← accept? [expected.kind] with
  | some token => return token
  | none => fail (.missing expected (← peek))

def tooDeep : Parser α := do
  fail (.tooDeep (← peek))

/-- `step` again and again until it gives nothing, at most once for each of `rounds`. It is told how
many items came before. -/
def upTo (step : Nat → Parser (Option α)) (count : Nat) (rounds : List Token) : Parser (List α) :=
  match rounds with
  | [] => pure []
  | _ :: rounds => do
    match ← step count with
    | none => return []
    | some item => return item :: (← upTo step (count + 1) rounds)

/-- `step` again and again until it gives nothing. Each item has to cost a token, so that one round
for each token that is left is enough. -/
def repeated (step : Nat → Parser (Option α)) : Parser (List α) := fun stop tokens =>
  upTo step 0 tokens stop tokens

end Parser
end LoxLang

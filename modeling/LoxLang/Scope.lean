import LoxLang.Value

/-! Scopes and chains of them. A scope binds names to values, each name once; a chain is the scopes
of the open blocks, innermost first, and the global scope at its end. A name means its innermost
binding. -/
namespace LoxLang

/-- The bindings of one scope, in the order in which the names were first bound. -/
abbrev Scope := List (String × Value)

namespace Scope

def find? (scope : Scope) (name : String) : Option Value :=
  scope.lookup name

def binds (scope : Scope) (name : String) : Bool :=
  (scope.find? name).isSome

/-- Binds the name, in place of any earlier binding of it. -/
def set (name : String) (value : Value) : Scope → Scope
  | [] => [(name, value)]
  | (bound, old) :: rest =>
    if bound = name then (bound, value) :: rest else (bound, old) :: set name value rest

end Scope

/-- The scopes that are open at some point of a run. -/
structure Chain where
  locals : List Scope := []
  globals : Scope := []
deriving Inhabited

namespace Chain

def find? (chain : Chain) (name : String) : Option Value :=
  (chain.locals.findSome? (·.find? name)).or (chain.globals.find? name)

def define (chain : Chain) (name : String) (value : Value) : Chain :=
  match chain.locals with
  | [] => { chain with globals := chain.globals.set name value }
  | inner :: outer => { chain with locals := inner.set name value :: outer }

/-- Changes the value of the innermost binding among the scopes, if there is one. -/
def assignIn? (name : String) (value : Value) : List Scope → Option (List Scope)
  | [] => none
  | scope :: outer =>
    if scope.binds name then some (scope.set name value :: outer)
    else (assignIn? name value outer).map (scope :: ·)

/-- Changes the value of the innermost binding of the name. There has to be one. -/
def assign? (chain : Chain) (name : String) (value : Value) : Option Chain :=
  match assignIn? name value chain.locals with
  | some locals => some { chain with locals }
  | none =>
    if chain.globals.binds name then
      some { chain with globals := chain.globals.set name value }
    else none

def push (chain : Chain) : Chain :=
  { chain with locals := [] :: chain.locals }

/-- Closes the innermost scope. The global one stays open. -/
def pop (chain : Chain) : Chain :=
  { chain with locals := chain.locals.tail }

end Chain
end LoxLang

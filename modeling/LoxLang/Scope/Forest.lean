import LoxLang.Machine

/-! A store of scopes that outlive each other. Scopes are numbered in the order of their creation,
and each may lie inside an older one, so that they form a forest; looking a name up walks from a scope
to the root of its tree. -/
namespace LoxLang

structure Node where
  enclosing : Option Nat
  scope : Scope
deriving Inhabited

structure Forest where
  nodes : List Node := []
deriving Inhabited

namespace Forest

def node? (forest : Forest) (index : Nat) : Option Node :=
  forest.nodes[index]?

/-- The scope around the given one. Only older scopes count. -/
def enclosing? (forest : Forest) (index : Nat) : Option Nat :=
  (forest.node? index).bind fun node => node.enclosing.filter (· < index)

/-- A new scope inside the given one, if that exists. Its number is that of the scopes before it. -/
def create (forest : Forest) (enclosing : Option Nat) : Forest :=
  let enclosing := enclosing.filter (· < forest.nodes.length)
  { nodes := forest.nodes ++ [{ enclosing, scope := [] }] }

/-- The number of the scope that the name is bound in, seen from the given one. -/
def resolve? (forest : Forest) (name : String) (index : Nat) : Option Nat :=
  match forest.node? index with
  | none => none
  | some node =>
    if node.scope.binds name then some index
    else
      match node.enclosing with
      | none => none
      | some outer => if outer < index then forest.resolve? name outer else none
termination_by index

def find? (forest : Forest) (name : String) (index : Nat) : Option Value := do
  let node ← forest.node? (← forest.resolve? name index)
  node.scope.find? name

def define (forest : Forest) (name : String) (value : Value) (index : Nat) : Forest :=
  { nodes := forest.nodes.modify index fun node =>
      { node with scope := node.scope.set name value } }

/-- Changes the value of the name, seen from the given scope. It has to be bound. -/
def assign? (forest : Forest) (name : String) (value : Value) (index : Nat) : Option Forest :=
  (forest.resolve? name index).map (forest.define name value)

def get (name : Token) (index : Nat) : EStateM RuntimeError Forest Value := do
  match (← EStateM.get).find? name.lexeme index with
  | some value => return value
  | none => throw (.undefined name)

def assign (name : Token) (value : Value) (index : Nat) : EStateM RuntimeError Forest Unit := do
  match (← EStateM.get).assign? name.lexeme value index with
  | some forest => EStateM.set forest
  | none => throw (.undefined name)

end Forest
end LoxLang

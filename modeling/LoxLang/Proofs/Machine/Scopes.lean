import LoxLang.Proofs.Grammar
import LoxLang.Proofs.Machine.Visits

/-! Which names are bound in which scope. Evaluating an expression binds no new name anywhere. A statement
of a program binds a new name only if it declares one, and then in the innermost scope; a block closes
what it opened. So the names in each open scope can be told from the statements that came before, and a
name is looked up where they say. -/
namespace LoxLang

namespace Scope

theorem find?_cons (bound : String) (value : Value) (rest : Scope) (name : String) :
    find? ((bound, value) :: rest) name = if name = bound then some value else rest.find? name := by
  by_cases same : name = bound
  · simp [find?, same]
  · have differ : (name == bound) = false := by simpa using same
    simp [find?, List.lookup_cons, differ, same]

/-- Setting a name touches that name alone, whether it was bound before or not. -/
theorem find?_set (scope : Scope) (name other : String) (value : Value) :
    (scope.set name value).find? other =
      if other = name then some value else scope.find? other := by
  induction scope with
  | nil => rw [set, find?_cons]
  | cons binding rest ih =>
    obtain ⟨bound, old⟩ := binding
    rw [set]
    split
    · subst bound
      rw [find?_cons, find?_cons]
      split <;> rfl
    · rw [find?_cons, find?_cons, ih]
      grind

theorem binds_set (scope : Scope) (name other : String) (value : Value) :
    (scope.set name value).binds other = true ↔ other = name ∨ scope.binds other = true := by
  rw [binds, binds, find?_set]
  by_cases same : other = name <;> simp [same]

/-- The scope binds these names and no others. -/
def Binds (scope : Scope) (names : List String) : Prop :=
  ∀ name, scope.binds name = true ↔ name ∈ names

theorem binds_nil : Binds [] [] := by
  intro name
  simp [binds, find?]

theorem Binds.define {scope : Scope} (exactly : scope.Binds names) (name : String) (value : Value) :
    (scope.set name value).Binds (names ++ [name]) := by
  intro other
  rw [binds_set, exactly other, List.mem_append, List.mem_singleton, or_comm]

/-- Another value for a name that is bound binds nothing new. -/
theorem Binds.assign {scope : Scope} (exactly : scope.Binds names) (bound : scope.binds name = true)
    (value : Value) : (scope.set name value).Binds names := by
  intro other
  rw [binds_set, exactly other, or_iff_right_iff_imp]
  rintro rfl
  exact (exactly other).mp bound

end Scope

/-- The number of the innermost scope that has the name, where each scope is given by its names. -/
def resolve (scopes : List (List String)) (name : String) : Option Nat :=
  scopes.findIdx? (·.contains name)

theorem resolve_cons (names : List String) (outer : List (List String)) (name : String) :
    resolve (names :: outer) name =
      if name ∈ names then some 0 else (resolve outer name).map (· + 1) := by
  simp [resolve, List.findIdx?_cons]

namespace Chain

/-- The open scopes but the global one bind these names and no others, scope by scope. -/
def Mirrors (chain : Chain) (scopes : List (List String)) : Prop :=
  List.Forall₂ Scope.Binds chain.locals scopes

/-- The scope with the number, counted from the innermost one, or else the global scope. -/
def scopeAt (chain : Chain) : Option Nat → Scope
  | some k => chain.locals[k]?.getD []
  | none => chain.globals

/-- Changes the scope with the number, or else the global scope. -/
def updateAt (chain : Chain) (change : Scope → Scope) : Option Nat → Chain
  | some k => { chain with locals := chain.locals.modify k change }
  | none => { chain with globals := change chain.globals }

theorem scopeAt_succ (inner : Scope) (outer : List Scope) (globals : Scope) (place : Option Nat) :
    scopeAt { locals := inner :: outer, globals } (place.map (· + 1)) =
      scopeAt { locals := outer, globals } place := by
  cases place <;> rfl

theorem updateAt_succ (inner : Scope) (outer : List Scope) (globals : Scope)
    (change : Scope → Scope) (place : Option Nat) :
    updateAt { locals := inner :: outer, globals } change (place.map (· + 1)) =
      { updateAt { locals := outer, globals } change place with
        locals := inner :: (updateAt { locals := outer, globals } change place).locals } := by
  cases place <;> rfl

theorem find?_cons (inner : Scope) (outer : List Scope) (globals : Scope) (name : String) :
    find? { locals := inner :: outer, globals } name =
      (inner.find? name).or (find? { locals := outer, globals } name) := by
  simp only [find?, List.findSome?_cons]
  cases inner.find? name <;> rfl

/-- The innermost scope that binds the name is changed, and the ones around it are not looked at. -/
theorem assign?_cons (inner : Scope) (outer : List Scope) (globals : Scope) (name : String)
    (value : Value) :
    assign? { locals := inner :: outer, globals } name value =
      if inner.binds name then some { locals := inner.set name value :: outer, globals }
      else (assign? { locals := outer, globals } name value).map fun chain =>
        { chain with locals := inner :: chain.locals } := by
  unfold assign?
  by_cases bound : inner.binds name
  · simp [assignIn?, bound]
  · simp only [assignIn?, bound]
    cases assignIn? name value outer with
    | some locals => rfl
    | none => by_cases global : globals.binds name <;> simp [global]

section Lookup

variable {chain : Chain} {scopes : List (List String)} (mirrors : chain.Mirrors scopes)
include mirrors

/-- A scope that the name resolves to binds it. -/
theorem Mirrors.binds_resolve (resolved : resolve scopes name = some k) :
    (chain.scopeAt (some k)).binds name = true := by
  obtain ⟨locals, globals⟩ := chain
  unfold Mirrors at mirrors
  simp only at mirrors
  induction mirrors generalizing k with
  | nil => simp [resolve] at resolved
  | cons exactly _ ih =>
    rw [resolve_cons] at resolved
    split at resolved
    · obtain rfl := Option.some.inj resolved
      exact (exactly name).mpr ‹_›
    · obtain ⟨j, further, rfl⟩ := Option.map_eq_some_iff.mp resolved
      exact ih further

/-- A name is looked up in the scope that it resolves to. -/
theorem Mirrors.find?_eq (name : String) :
    chain.find? name = (chain.scopeAt (resolve scopes name)).find? name := by
  obtain ⟨locals, globals⟩ := chain
  unfold Mirrors at mirrors
  simp only at mirrors
  induction mirrors with
  | nil => rfl
  | cons exactly _ ih =>
    rw [find?_cons, resolve_cons]
    split
    · have bound := (exactly name).mpr ‹_›
      obtain ⟨value, found⟩ := Option.isSome_iff_exists.mp bound
      rw [found]
      exact found.symm
    · have unbound := mt (exactly name).mp ‹_›
      have absent := Option.not_isSome_iff_eq_none.mp unbound
      rw [absent, Option.none_or, ih, scopeAt_succ]

/-- A name is given another value in the scope that it resolves to. -/
theorem Mirrors.assign?_eq (name : String) (value : Value) :
    chain.assign? name value =
      if (chain.scopeAt (resolve scopes name)).binds name then
        some (chain.updateAt (Scope.set name value) (resolve scopes name))
      else none := by
  obtain ⟨locals, globals⟩ := chain
  unfold Mirrors at mirrors
  simp only at mirrors
  induction mirrors with
  | nil => rfl
  | cons exactly _ ih =>
    rw [assign?_cons, resolve_cons]
    split
    · have named := (exactly name).mp ‹_›
      rw [if_pos named]
      exact (if_pos ‹_›).symm
    · have other := mt (exactly name).mpr ‹_›
      rw [if_neg other, ih, scopeAt_succ, updateAt_succ]
      split <;> rfl

end Lookup

section Changes

variable {chain : Chain} {scopes : List (List String)}

theorem mirrors_nil : chain.Mirrors [] ↔ chain.locals = [] := List.forall₂_nil_right_iff

theorem Mirrors.push (mirrors : chain.Mirrors scopes) : chain.push.Mirrors ([] :: scopes) :=
  .cons Scope.binds_nil mirrors

theorem Mirrors.pop (mirrors : chain.Mirrors (names :: scopes)) : chain.pop.Mirrors scopes := by
  obtain ⟨locals, globals⟩ := chain
  cases mirrors with
  | cons _ outer => exact outer

def extend (names : List String) : List (List String) → List (List String)
  | [] => []
  | inner :: outer => (inner ++ names) :: outer

theorem extend_none (scopes : List (List String)) : extend [] scopes = scopes := by
  cases scopes with
  | nil => rfl
  | cons inner outer => rw [extend, List.append_nil]

theorem Mirrors.define (mirrors : chain.Mirrors scopes) (name : String) (value : Value) :
    (chain.define name value).Mirrors (extend [name] scopes) := by
  obtain ⟨locals, globals⟩ := chain
  cases mirrors with
  | nil => exact .nil
  | cons exactly outer => exact .cons (exactly.define name value) outer

/-- Assignment binds no new name in any scope, so a static picture of the scopes stays right. -/
theorem Mirrors.assign (mirrors : chain.Mirrors scopes)
    (assigned : chain.assign? name value = some changed) : changed.Mirrors scopes := by
  obtain ⟨locals, globals⟩ := chain
  unfold Mirrors at mirrors ⊢
  simp only at mirrors
  induction mirrors generalizing changed with
  | nil =>
    rw [mirrors_nil.mpr rfl |>.assign?_eq] at assigned
    split at assigned
    · obtain rfl := Option.some.inj assigned
      exact .nil
    · contradiction
  | cons exactly outer ih =>
    rw [assign?_cons] at assigned
    split at assigned
    · obtain rfl := Option.some.inj assigned
      exact .cons (exactly.assign ‹_› value) outer
    · obtain ⟨further, found, rfl⟩ := Option.map_eq_some_iff.mp assigned
      exact .cons exactly (ih found)

end Changes
end Chain

namespace Eval

/-- The part keeps what holds of the machine, also when it stops early. -/
def Keeps (holds : Machine → Prop) (part : Eval α) : Prop :=
  Meets holds part (fun _ => holds) (fun _ => holds)

variable {holds : Machine → Prop}

theorem keeps_ofOperator (operator : Token) (result : Except RuntimeCause Value) :
    Keeps holds (ofOperator operator result) := by
  cases result with
  | ok value => exact meets_pure fun _ here => here
  | error cause => exact meets_fail fun _ here => here

theorem keeps_nest {part : Eval α} (token : Token) (deeper : ∀ m, holds m → holds m.deeper)
    (shallower : ∀ m, holds m → holds m.shallower) (inside : Keeps holds part) :
    Keeps holds (nest token part) := by
  refine meets_nest token (fun _ here _ => here) ?_
  refine inside.mono ?_ (fun _ _ done => shallower _ done) (fun _ _ stopped => shallower _ stopped)
  rintro _ ⟨outer, here, _, rfl⟩
  exact deeper outer here

end Eval

/-- An expression changes the machine only by entering and leaving levels and by assigning. -/
theorem Expr.keeps_evaluate {holds : Machine → Prop} (deeper : ∀ m, holds m → holds m.deeper)
    (shallower : ∀ m, holds m → holds m.shallower)
    (assigned : ∀ m name value chain, holds m → m.chain.assign? name value = some chain →
      holds { m with chain }) (e : Expr) : Eval.Keeps holds e.evaluate := by
  induction e using Expr.inductionOn with
  | missing => exact Eval.meets_throw fun _ here => here
  | literal value token => exact Eval.meets_pure fun _ here => here
  | grouping inner ih => exact Eval.keeps_nest _ deeper shallower ih
  | unary operator right ih =>
    exact Eval.keeps_nest _ deeper shallower (ih.bind fun _ => Eval.keeps_ofOperator _ _)
  | binary left operator right left_ih right_ih =>
    exact left_ih.bind fun _ => right_ih.bind fun _ => Eval.keeps_ofOperator _ _
  | var name => exact Eval.meets_get (fun _ _ here _ => here) fun _ here _ => here
  | assign name value ih =>
    refine Eval.keeps_nest _ deeper shallower (ih.bind fun v => ?_)
    have set : Eval.Keeps holds (Eval.assign name v) :=
      Eval.meets_assign (fun m chain here found => assigned m _ v chain here found)
        fun _ here _ => here
    exact set.bind fun _ => Eval.meets_pure fun _ here => here
  | call callee paren arguments => exact Eval.meets_fail fun _ here => here

section Names

variable {scopes : List (List String)}

def Machine.Mirrors (scopes : List (List String)) (m : Machine) : Prop := m.chain.Mirrors scopes

theorem Expr.mirrors_evaluate (e : Expr) : Eval.Keeps (Machine.Mirrors scopes) e.evaluate :=
  e.keeps_evaluate (fun _ here => here) (fun _ here => here)
    fun _ _ _ _ here found => Chain.Mirrors.assign here found

theorem Expr.mirrors_holds (e : Expr) : Eval.Keeps (Machine.Mirrors scopes) e.holds :=
  Eval.Meets.map e.mirrors_evaluate

end Names

namespace Stmt

def declared : Stmt → List String
  | declare name | define name _ => [name.lexeme]
  | missing | expression _ | print _ | block .. | ifThen .. | ifElse .. | loop .. | bad .. => []

def declaredIn (body : List Stmt) : List String := body.flatMap declared

/-- The statement is one of a program: it declares only where statements follow one another, or it
could not be parsed. -/
def Settled (s : Stmt) : Prop :=
  (∃ start e, s = bad start e) ∨ ∃ declares, s.Canonical declares

theorem declared_none {s : Stmt} (canonical : s.Canonical false) : s.declared = [] := by
  cases s with
  | declare | define => simp [Canonical] at canonical
  | _ => rfl

/-- What a statement does to the names: it adds the one that it declares, unless it stops early. -/
def NamesAfter (rounds : Nat) (s : Stmt) : Prop :=
  ∀ scopes, Eval.Meets (Machine.Mirrors scopes) (s.execute rounds)
    (fun _ => Machine.Mirrors (Chain.extend s.declared scopes)) (fun _ => Machine.Mirrors scopes)

/-- Statements declare one after another. If one of them stops, it is not known what the innermost scope binds
by then, but the block is about to close it. -/
theorem mirrors_executeAll {body : List Stmt} (each : ∀ s ∈ body, s.NamesAfter rounds)
    (names : List String) (outer : List (List String)) :
    Eval.Meets (Machine.Mirrors (names :: outer)) (executeAll rounds body)
      (fun _ => Machine.Mirrors ((names ++ declaredIn body) :: outer))
      (fun _ m => ∃ inner, m.Mirrors (inner :: outer)) := by
  induction body generalizing names with
  | nil =>
    refine Eval.meets_pure fun m here => ?_
    simpa [declaredIn] using here
  | cons s body ih =>
    obtain ⟨here, later⟩ := List.forall_mem_cons.mp each
    rw [executeAll]
    have first := (here (names :: outer)).mono (fun _ start => start) (fun _ _ done => done)
      (fun _ m stopped => (⟨names, stopped⟩ : ∃ inner, m.Mirrors (inner :: outer)))
    refine first.bind fun _ => ?_
    have rest := ih later (names ++ s.declared)
    rw [List.append_assoc] at rest
    exact rest

theorem names_nest {part : Eval α} {later : List (List String)} (token : Token)
    (inside : Eval.Meets (Machine.Mirrors scopes) part (fun _ => Machine.Mirrors later)
      (fun _ => Machine.Mirrors scopes)) :
    Eval.Meets (Machine.Mirrors scopes) (Eval.nest token part) (fun _ => Machine.Mirrors later)
      (fun _ => Machine.Mirrors scopes) := by
  refine Eval.meets_nest token (fun _ here _ => here) ?_
  refine inside.mono ?_ (fun _ _ done => done) (fun _ _ stopped => stopped)
  rintro _ ⟨outer, here, _, rfl⟩
  exact here

theorem names_define (name : String) (value : Value) :
    Eval.Meets (Machine.Mirrors scopes) (Eval.define name value)
      (fun _ => Machine.Mirrors (Chain.extend [name] scopes)) (fun _ => Machine.Mirrors scopes) :=
  fun _ here => Chain.Mirrors.define here name value

/-- A block leaves the names as they were, whatever its own statements declare. -/
theorem names_block {body : List Stmt} (each : ∀ s ∈ body, s.NamesAfter rounds) :
    Eval.Keeps (Machine.Mirrors scopes) (Eval.inNewScope (executeAll rounds body)) := by
  apply Eval.meets_inNewScope
  refine (mirrors_executeAll each [] scopes).mono ?_ ?_ ?_
  · rintro _ ⟨outer, here, rfl⟩
    exact Chain.Mirrors.push here
  · intro _ m done
    exact Chain.Mirrors.pop done
  · rintro _ m ⟨inner, stopped⟩
    exact Chain.Mirrors.pop stopped

/-- A branch or a body declares nothing, so that running it keeps the names. -/
theorem NamesAfter.branch {s : Stmt} (after : s.NamesAfter rounds) (canonical : s.Canonical false) :
    Eval.Keeps (Machine.Mirrors scopes) (s.execute rounds) := by
  have kept := after scopes
  rwa [declared_none canonical, Chain.extend_none] at kept

/-- One case for each statement. Only the two declarations change the innermost scope; branches and bodies
cannot be declarations, by the grammar. -/
theorem names_canonical {s : Stmt} (canonical : s.Canonical declares) (rounds : Nat) :
    s.NamesAfter rounds := by
  have nothing {scopes : List (List String)} :
      Eval.Keeps (Machine.Mirrors scopes) (pure Value.void) := Eval.meets_pure fun _ here => here
  induction s using Stmt.inductionOn generalizing declares with
  | missing | bad => exact canonical.elim
  | expression e =>
    intro scopes
    rw [execute, declared, Chain.extend_none]
    exact names_nest _ e.mirrors_evaluate
  | print e =>
    intro scopes
    rw [execute, declared, Chain.extend_none]
    refine names_nest _ (e.mirrors_evaluate.bind fun value => ?_)
    have printed : Eval.Keeps (Machine.Mirrors scopes) (Eval.print value) :=
      Eval.meets_print (fun _ _ here _ => here) fun _ here _ => here
    exact printed.bind fun _ => nothing
  | declare name =>
    intro scopes
    rw [execute, declared]
    exact names_nest _ ((names_define _ _).bind fun _ => Eval.meets_pure fun _ here => here)
  | define name e =>
    intro scopes
    rw [execute, declared]
    refine names_nest _ (e.mirrors_evaluate.bind fun value => ?_)
    exact (names_define _ value).bind fun _ => Eval.meets_pure fun _ here => here
  | block brace body ih =>
    intro scopes
    have each : ∀ s ∈ body, s.NamesAfter rounds := fun s member =>
      ih s member (canonicalAll_iff.mp canonical.2 s member)
    rw [execute, declared, Chain.extend_none]
    exact names_nest _ ((names_block each).bind fun _ => nothing)
  | ifThen condition thenBranch ih =>
    intro scopes
    rw [execute, declared, Chain.extend_none]
    refine names_nest _ (condition.mirrors_holds.bind fun holds => ?_)
    cases holds with
    | true => exact ((ih canonical.2).branch canonical.2).bind fun _ => nothing
    | false => exact nothing
  | ifElse condition thenBranch elseBranch then_ih else_ih =>
    obtain ⟨_, then_canonical, _, else_canonical⟩ := canonical
    intro scopes
    rw [execute, declared, Chain.extend_none]
    refine names_nest _ (condition.mirrors_holds.bind fun holds => ?_)
    cases holds with
    | true => exact ((then_ih then_canonical).branch then_canonical).bind fun _ => nothing
    | false => exact ((else_ih else_canonical).branch else_canonical).bind fun _ => nothing
  | loop condition body ih =>
    intro scopes
    have again : Eval.Keeps (Machine.Mirrors scopes) (discard (body.execute rounds)) :=
      Eval.Meets.map ((ih canonical.2).branch canonical.2)
    rw [execute, declared, Chain.extend_none]
    refine names_nest _ (Eval.Meets.bind ?_ fun _ => nothing)
    apply Eval.meets_whileTrue
    · refine condition.mirrors_holds.mono (fun _ here => here) ?_ (fun _ _ stopped => stopped)
      intro b m done
      cases b <;> exact done
    · exact again
    · exact fun _ here => here

theorem Settled.names {s : Stmt} (settled : s.Settled) (rounds : Nat) : s.NamesAfter rounds := by
  obtain ⟨start, e, rfl⟩ | ⟨declares, canonical⟩ := settled
  · intro scopes
    rw [execute, declared, Chain.extend_none]
    exact names_nest _ (Eval.meets_pure fun _ here => here)
  · exact names_canonical canonical rounds

end Stmt

end LoxLang

import LoxLang.Proofs.Machine.Closure
import LoxLang.Proofs.Machine.Scopes
import LoxLang.Proofs.Nesting

/-! A run gives back what it borrowed. Whatever tree is run, on whatever machine, and however the run ends,
the scopes that were open are open again, the machine is as deep as it was, and what was printed stays
printed. So between the runs of a session only the global scope is open, at no depth. -/
namespace LoxLang

namespace Scope

def names (scope : Scope) : List String := scope.map Prod.fst

/-- The scope still has the names that it had, in the same order, and perhaps some more after them. -/
def Grows (before after : Scope) : Prop := before.names <+: after.names

theorem grows_refl (scope : Scope) : Grows scope scope := List.prefix_refl _

theorem Grows.trans {first second third : Scope} (earlier : Grows first second)
    (later : Grows second third) : Grows first third :=
  List.IsPrefix.trans earlier later

/-- A new name comes after the others, and a bound one keeps its place. -/
theorem grows_set (name : String) (value : Value) (scope : Scope) : Grows scope (scope.set name value) := by
  unfold Grows
  induction scope with
  | nil => exact List.nil_prefix
  | cons binding rest ih =>
    obtain ⟨bound, old⟩ := binding
    rw [set]
    split
    · exact List.prefix_refl _
    · exact (List.prefix_cons_inj bound).mpr ih

end Scope

/-- The same scopes are open, and what is printed comes after what was printed. -/
structure Machine.Extends (before after : Machine) : Prop where
  locals : List.Forall₂ Scope.Grows before.chain.locals after.chain.locals
  globals : before.chain.globals.Grows after.chain.globals
  output : before.output.toList <+: after.output.toList

namespace Machine

theorem grow_refl (scopes : List Scope) : List.Forall₂ Scope.Grows scopes scopes :=
  List.forall₂_same.mpr fun scope _ => Scope.grows_refl scope

/-- What relates scopes and is transitive relates rows of them scope by scope. -/
theorem scopes_trans {related : Scope → Scope → Prop} {first second third : List Scope}
    (earlier : List.Forall₂ related first second) (later : List.Forall₂ related second third)
    (trans : ∀ a b c, related a b → related b c → related a c) : List.Forall₂ related first third := by
  induction earlier generalizing third with
  | nil => exact later
  | cons here _ ih =>
    cases later with
    | cons there rest => exact .cons (trans _ _ _ here there) (ih rest)

theorem extends_refl (m : Machine) : m.Extends m where
  locals := grow_refl _
  globals := Scope.grows_refl _
  output := List.prefix_refl _

theorem Extends.trans {first second third : Machine} (earlier : first.Extends second)
    (later : second.Extends third) : first.Extends third where
  locals := scopes_trans earlier.locals later.locals fun _ _ _ => Scope.Grows.trans
  globals := earlier.globals.trans later.globals
  output := earlier.output.trans later.output

theorem extends_define (m : Machine) (name : String) (value : Value) :
    m.Extends { m with chain := m.chain.define name value } := by
  obtain ⟨⟨locals, globals⟩, depth, limit, output⟩ := m
  cases locals with
  | nil => exact ⟨.nil, Scope.grows_set name value globals, List.prefix_refl _⟩
  | cons inner outer =>
    have inside : List.Forall₂ Scope.Grows (inner :: outer) (inner.set name value :: outer) :=
      .cons (Scope.grows_set name value inner) (grow_refl outer)
    exact ⟨inside, Scope.grows_refl globals, List.prefix_refl _⟩

theorem grow_assignIn (assigned : Chain.assignIn? name value scopes = some changed) :
    List.Forall₂ Scope.Grows scopes changed := by
  induction scopes generalizing changed with
  | nil => simp [Chain.assignIn?] at assigned
  | cons scope outer ih =>
    rw [Chain.assignIn?] at assigned
    split at assigned
    · obtain rfl := Option.some.inj assigned
      exact .cons (Scope.grows_set name value scope) (grow_refl outer)
    · obtain ⟨later, found, rfl⟩ := Option.map_eq_some_iff.mp assigned
      exact .cons (Scope.grows_refl scope) (ih found)

/-- Assignment changes values, but no names, in whichever scope it finds the name. -/
theorem extends_assign {m : Machine} {chain : Chain} (assigned : m.chain.assign? name value = some chain) :
    m.Extends { m with chain } := by
  unfold Chain.assign? at assigned
  split at assigned
  · rename_i found
    obtain rfl := Option.some.inj assigned
    exact ⟨grow_assignIn found, Scope.grows_refl _, List.prefix_refl _⟩
  · split at assigned
    · obtain rfl := Option.some.inj assigned
      exact ⟨grow_refl _, Scope.grows_set name value _, List.prefix_refl _⟩
    · contradiction

theorem extends_print (m : Machine) (line : String) : m.Extends { m with output := m.output.push line } := by
  refine ⟨grow_refl _, Scope.grows_refl _, ?_⟩
  rw [Array.toList_push]
  exact List.prefix_append _ _

/-- Closing a scope undoes opening it, whatever was done in between. -/
theorem Extends.closed {m m' : Machine} (inside : m.opened.Extends m') : m.Extends m'.closed := by
  obtain ⟨locals, globals, output⟩ := inside
  refine ⟨?_, globals, output⟩
  have pushed : List.Forall₂ Scope.Grows ([] :: m.chain.locals) m'.chain.locals := locals
  change List.Forall₂ Scope.Grows m.chain.locals m'.chain.locals.tail
  cases opened : m'.chain.locals with
  | nil =>
    rw [opened] at pushed
    contradiction
  | cons inner outer =>
    rw [opened] at pushed
    exact (List.forall₂_cons.mp pushed).2

end Machine

namespace Eval

/-- The machine that the part leaves, however it ends, extends the one that it was given. -/
def Extends (part : Eval α) : Prop := ∀ m : Machine, m.Extends (Machine.left (part m))

theorem extends_pure (a : α) : (pure a : Eval α).Extends := Machine.extends_refl

theorem extends_throw (stop : Stop) : (throw stop : Eval α).Extends := Machine.extends_refl

theorem Extends.bind {first : Eval α} {second : α → Eval β} (earlier : first.Extends)
    (later : ∀ a, (second a).Extends) : (first >>= second).Extends := by
  intro m
  have start := earlier m
  cases done : first m with
  | ok a m' =>
    rw [done] at start
    rw [bind_of_ok done]
    exact start.trans (later a m')
  | error stop m' =>
    rw [done] at start
    rw [bind_of_error done]
    exact start

theorem extends_nest {part : Eval α} (token : Token) (inside : part.Extends) :
    (nest token part).Extends := by
  intro m
  unfold nest
  split
  · exact m.extends_refl
  · have within := inside m.deeper
    unfold Machine.deeper at within
    cases done : part { m with depth := m.depth + 1 } with
    | ok a m' | error stop m' =>
      rw [done] at within
      exact ⟨within.locals, within.globals, within.output⟩

/-- The scope is dropped with everything that was declared in it, also when the part has failed. -/
theorem extends_inNewScope {part : Eval α} (inside : part.Extends) : (inNewScope part).Extends := by
  intro m
  have within := inside m.opened
  unfold Machine.opened at within
  unfold inNewScope
  cases done : part { m with chain := m.chain.push } with
  | ok a m' | error stop m' =>
    rw [done] at within
    exact Machine.Extends.closed within

theorem extends_define (name : String) (value : Value) : (define name value).Extends :=
  fun m => m.extends_define name value

theorem extends_print (value : Value) : (print value).Extends := by
  intro m
  cases shown : value.text? with
  | some line =>
    rw [print_shown shown]
    exact m.extends_print line
  | none =>
    rw [print_blank shown]
    exact m.extends_refl

theorem extends_get (name : Token) : (get name).Extends := by
  intro m
  cases lookup : m.chain.find? name.lexeme with
  | some value =>
    rw [get_bound lookup]
    exact m.extends_refl
  | none =>
    rw [get_unbound lookup]
    exact m.extends_refl

theorem extends_assign (name : Token) (value : Value) : (assign name value).Extends := by
  intro m
  cases assigned : m.chain.assign? name.lexeme value with
  | some chain =>
    rw [assign_bound assigned]
    exact Machine.extends_assign assigned
  | none =>
    rw [assign_unbound assigned]
    exact m.extends_refl

/-- So whatever is run extends the machine that it is run on. -/
theorem closed_extends : Closed fun _ part => part.Extends where
  pures := extends_pure
  throws := extends_throw
  binds := Extends.bind
  nests := extends_nest
  scopes := extends_inNewScope
  gets := extends_get
  assigns := extends_assign
  defines := extends_define
  prints := extends_print

/-- However a part ends that keeps its depth, the machine is as deep as before. -/
theorem Within.left_at {part : Eval α} (within : Within levels part) (m : Machine) :
    (Machine.left (part m)).At m.depth m.limit := by
  have kept := within m.depth m.limit
  cases done : part m with
  | ok a m' => exact kept.of_ok done ⟨rfl, rfl⟩
  | error stop m' => exact (kept.of_error done ⟨rfl, rfl⟩).1

end Eval

theorem extends_runProgram (rounds : Nat) (program : List Stmt) : (runProgram rounds program).Extends :=
  Eval.closed_extends.runProgram rounds program

/-- A machine that has run any programs one after the other, each of them to its end or up to a failure. -/
inductive Machine.Used : Machine → Prop where
  | fresh (limit : Nat) : Used { limit }
  | run (rounds : Nat) (program : List Stmt) : Used m → Used (.left (runProgram rounds program m))

/-- Only the global scope is open, and nothing is being evaluated. -/
structure Machine.Idle (m : Machine) : Prop where
  locals : m.chain.locals = []
  depth : m.depth = 0

theorem Machine.Idle.run {m : Machine} (idle : m.Idle) (rounds : Nat) (program : List Stmt) :
    (Machine.left (runProgram rounds program m)).Idle := by
  have scopes := (extends_runProgram rounds program m).locals
  have level := ((within_runProgram rounds program).left_at m).depth_eq
  rw [idle.locals] at scopes
  exact ⟨List.forall₂_nil_left_iff.mp scopes, level.trans idle.depth⟩

theorem Machine.Used.idle {m : Machine} (used : m.Used) : m.Idle := by
  induction used with
  | fresh limit => exact ⟨rfl, rfl⟩
  | run rounds program _ ih => exact ih.run rounds program

theorem Task.extends_run (rounds : Nat) (task : Task) : (task.run rounds).Extends := by
  cases task with
  | evaluate e => exact Eval.closed_extends.evaluate e
  | execute s => exact Eval.closed_extends.execute rounds s

theorem Task.within_run (rounds : Nat) (task : Task) : Eval.Within task.levels (task.run rounds) := by
  cases task with
  | evaluate e => exact e.within_evaluate
  | execute s => exact s.within_execute rounds

/-- After any runs of any trees only the global scope is open, so that names are looked up nowhere else, and
the depth is zero; the next run adds to what was printed. On every machine whatever, running a statement or
evaluating an expression leaves the same scopes open, at the same depth, whether it ends or stops. -/
theorem session_restores :
    (∀ m : Machine, m.Used →
      m.chain.locals = [] ∧ (∀ name, m.chain.find? name = m.chain.globals.find? name) ∧ m.depth = 0 ∧
      ∀ rounds program, m.output.toList <+: (Machine.left (runProgram rounds program m)).output.toList) ∧
    ∀ (rounds : Nat) (task : Task) (m : Machine),
      List.Forall₂ Scope.Grows m.chain.locals (Machine.left (task.run rounds m)).chain.locals ∧
      m.chain.globals.Grows (Machine.left (task.run rounds m)).chain.globals ∧
      (Machine.left (task.run rounds m)).depth = m.depth := by
  constructor
  · intro m used
    obtain ⟨locals, depth⟩ := used.idle
    refine ⟨locals, fun name => ?_, depth, fun rounds program => ?_⟩
    · rw [Chain.find?, locals]
      rfl
    · exact (extends_runProgram rounds program m).output
  · intro rounds task m
    have extended := task.extends_run rounds m
    exact ⟨extended.locals, extended.globals, ((task.within_run rounds).left_at m).depth_eq⟩

/-- A declaration without braces, in a loop in a block, fails two levels further down; and an expression fails
on a machine in the middle of a run. -/
theorem session_restores_inside_loop :
    let name : Token := { kind := .identifier, lexeme := "a" }
    let negated : Expr := .unary { kind := .minus } (.grouping (.var name))
    let program : List Stmt := [.define name (.literal .nil {}),
      .block {} [.loop (.literal (.bool true) {}) (.define name negated)]]
    let m : Machine := .left (runProgram 9 program { limit := 7 })
    let inside : Machine := { chain := { locals := [[], [("b", .nil)]] }, depth := 5 }
    m.chain.locals = [] ∧ (∀ name, m.chain.find? name = m.chain.globals.find? name) ∧ m.depth = 0 ∧
      (∀ rounds program, m.output.toList <+: (Machine.left (runProgram rounds program m)).output.toList) ∧
      List.Forall₂ Scope.Grows inside.chain.locals
        (Machine.left ((Task.evaluate negated).run 9 inside)).chain.locals ∧
      inside.chain.globals.Grows (Machine.left ((Task.evaluate negated).run 9 inside)).chain.globals ∧
      (Machine.left ((Task.evaluate negated).run 9 inside)).depth = 5 := by
  intro name negated program m inside
  obtain ⟨locals, found, depth, printed⟩ := session_restores.1 m (.run 9 program (.fresh 7))
  exact ⟨locals, found, depth, printed, session_restores.2 9 (.evaluate negated) inside⟩

end LoxLang

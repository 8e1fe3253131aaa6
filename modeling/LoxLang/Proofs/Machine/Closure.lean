import LoxLang.Proofs.Machine.Triples
import LoxLang.Proofs.Grammar

/-! Every run is made of a few operations of the machine and a few ways to compose them. A property that those
operations have, and that those ways keep, is a property of every run, whatever tree is run. -/
namespace LoxLang

namespace Eval

/-- The operations of the machine have the property, and what is composed of parts that have it has it too. -/
structure Closed (Has : (α : Type) → Eval α → Prop) : Prop where
  pures {α : Type} (a : α) : Has α (pure a)
  throws {α : Type} (stop : Stop) : Has α (throw stop)
  binds {α β : Type} {first : Eval α} {second : α → Eval β} :
    Has α first → (∀ a, Has β (second a)) → Has β (first >>= second)
  nests {α : Type} {part : Eval α} (token : Token) : Has α part → Has α (nest token part)
  scopes {α : Type} {part : Eval α} : Has α part → Has α (inNewScope part)
  gets (name : Token) : Has Value (get name)
  assigns (name : Token) (value : Value) : Has Unit (assign name value)
  defines (name : String) (value : Value) : Has Unit (define name value)
  prints (value : Value) : Has Unit (print value)

namespace Closed

variable {Has : (α : Type) → Eval α → Prop} (closed : Closed Has)
include closed

theorem map {part : Eval α} (f : α → β) (inside : Has α part) : Has β (f <$> part) := by
  rw [← bind_pure_comp f part]
  exact closed.binds inside fun a => closed.pures (f a)

theorem ofOperator (operator : Token) (result : Except RuntimeCause Value) :
    Has Value (Eval.ofOperator operator result) := by
  cases result with
  | ok value => exact closed.pures value
  | error cause => exact closed.throws _

theorem whileTrue {test : Eval Bool} {body : Eval Unit} (tested : Has Bool test) (again : Has Unit body)
    (rounds : Nat) : Has Unit (Eval.whileTrue test body rounds) := by
  induction rounds with
  | zero => exact closed.throws .exhausted
  | succ rounds ih =>
    refine closed.binds tested fun holds => ?_
    cases holds with
    | true => exact closed.binds again fun _ => ih
    | false => exact closed.pures ()

/-- The induction over expressions, made once for all such properties. The arguments of a call are never run, so
nothing is asked of them. -/
theorem evaluate (e : Expr) : Has Value e.evaluate := by
  induction e using Expr.inductionOn with
  | missing => exact closed.throws _
  | literal value token => exact closed.pures value
  | grouping inner ih => exact closed.nests inner.token ih
  | unary operator right ih =>
    refine closed.nests operator (closed.binds ih fun value => ?_)
    exact closed.ofOperator operator (applyUnary operator value)
  | binary left operator right left_ih right_ih =>
    refine closed.binds left_ih fun a => closed.binds right_ih fun b => ?_
    exact closed.ofOperator operator (applyBinary operator a b)
  | var name => exact closed.gets name
  | assign name value ih =>
    refine closed.nests name (closed.binds ih fun v => ?_)
    exact closed.binds (closed.assigns name v) fun _ => closed.pures v
  | call callee paren arguments => exact closed.throws _

theorem holds (e : Expr) : Has Bool e.holds := closed.map Value.truthy (closed.evaluate e)

theorem executeAll {ss : List Stmt} (each : ∀ s ∈ ss, Has Value (s.execute rounds)) :
    Has Unit (Stmt.executeAll rounds ss) := by
  induction ss with
  | nil => exact closed.pures ()
  | cons s ss ih =>
    obtain ⟨here, later⟩ := List.forall_mem_cons.mp each
    rw [Stmt.executeAll]
    exact closed.binds here fun _ => ih later

/-- The induction over statements. Holes and bad statements are run too, so no tree has to be excluded. -/
theorem execute (rounds : Nat) (s : Stmt) : Has Value (s.execute rounds) := by
  have nothing : Has Value (pure .void) := closed.pures _
  induction s using Stmt.inductionOn with
  | missing =>
    rw [Stmt.execute]
    exact closed.nests _ (closed.throws _)
  | expression e =>
    rw [Stmt.execute]
    exact closed.nests _ (closed.evaluate e)
  | print e =>
    rw [Stmt.execute]
    refine closed.nests _ (closed.binds (closed.evaluate e) fun value => ?_)
    exact closed.binds (closed.prints value) fun _ => nothing
  | declare name =>
    rw [Stmt.execute]
    exact closed.nests _ (closed.binds (closed.defines name.lexeme .nil) fun _ => nothing)
  | define name e =>
    rw [Stmt.execute]
    refine closed.nests _ (closed.binds (closed.evaluate e) fun value => ?_)
    exact closed.binds (closed.defines name.lexeme value) fun _ => nothing
  | block brace body ih =>
    rw [Stmt.execute]
    have inside := closed.scopes (closed.executeAll ih)
    exact closed.nests _ (closed.binds inside fun _ => nothing)
  | ifThen condition thenBranch ih =>
    rw [Stmt.execute]
    refine closed.nests _ (closed.binds (closed.holds condition) fun holds => ?_)
    cases holds with
    | true => exact closed.binds ih fun _ => nothing
    | false => exact nothing
  | ifElse condition thenBranch elseBranch then_ih else_ih =>
    rw [Stmt.execute]
    refine closed.nests _ (closed.binds (closed.holds condition) fun holds => ?_)
    cases holds with
    | true => exact closed.binds then_ih fun _ => nothing
    | false => exact closed.binds else_ih fun _ => nothing
  | loop condition body ih =>
    rw [Stmt.execute]
    have again : Has Unit (discard (body.execute rounds)) := closed.map _ ih
    have turns := closed.whileTrue (closed.holds condition) again rounds
    exact closed.nests _ (closed.binds turns fun _ => nothing)
  | bad start error =>
    rw [Stmt.execute]
    exact closed.nests _ nothing

/-- Whatever holds of the operations holds of whole programs, with any number of rounds for their loops. -/
theorem runProgram (rounds : Nat) (program : List Stmt) : Has Value (LoxLang.runProgram rounds program) := by
  have from_value : ∀ value, Has Value (program.foldlM (fun _ s => s.execute rounds) value) := by
    induction program with
    | nil => exact fun value => closed.pures value
    | cons s program ih =>
      intro value
      rw [List.foldlM_cons]
      exact closed.binds (closed.execute rounds s) ih
  exact from_value .void

end Closed

end Eval

end LoxLang

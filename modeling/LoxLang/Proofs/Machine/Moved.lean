import LoxLang.Proofs.Machine.Safety
import LoxLang.Proofs.Move

/-! Running looks at the places of tokens only to blame them: a moved tree without holes does to the
machine what the tree does, and stops where it stops, with the same failure at the moved place. -/
namespace LoxLang

/-- The result of a run of something that was moved. -/
def Machine.moved (g : Position → Position) :
    EStateM.Result Stop Machine α → EStateM.Result Stop Machine α
  | .ok a m => .ok a m
  | .error stop m => .error (stop.move g) m

namespace Eval

/-- The second part does what the first one does, and moves what it stops with. -/
def Moves (g : Position → Position) (p q : Eval α) : Prop :=
  ∀ m, q m = Machine.moved g (p m)

variable {g : Position → Position}

theorem moves_pure (a : α) : Moves g (pure a) (pure a) := fun _ => rfl

theorem moves_throw (stop : Stop) :
    Moves g (throw stop : Eval α) (throw (stop.move g)) := fun _ => rfl

/-- A first part that stops moves its failure once; the second one is not reached on either side. -/
theorem Moves.bind {p q : Eval α} {next other : α → Eval β} (first : Moves g p q)
    (later : ∀ a, Moves g (next a) (other a)) : Moves g (p >>= next) (q >>= other) := by
  intro m
  change EStateM.bind q other m = Machine.moved g (EStateM.bind p next m)
  unfold EStateM.bind
  rw [first m]
  cases done : p m with
  | ok a m' => exact later a m'
  | error stop m' => rfl

theorem Moves.map {p q : Eval α} (f : α → β) (moves : Moves g p q) :
    Moves g (f <$> p) (f <$> q) := by
  intro m
  change EStateM.map f q m = Machine.moved g (EStateM.map f p m)
  unfold EStateM.map
  rw [moves m]
  cases done : p m <;> rfl

/-- The token is moved as well, since it is blamed when the nesting is too deep. -/
theorem moves_nest {p q : Eval α} (token : Token) (moves : Moves g p q) :
    Moves g (nest token p) (nest (token.move g) q) := by
  intro m
  unfold nest
  split
  · rfl
  · rw [moves]
    cases done : p { m with depth := m.depth + 1 } <;> rfl

theorem moves_inNewScope {p q : Eval α} (moves : Moves g p q) :
    Moves g (inNewScope p) (inNewScope q) := by
  intro m
  unfold inNewScope
  rw [moves]
  cases done : p { m with chain := m.chain.push } <;> rfl

theorem moves_fail (token : Token) (cause : RuntimeCause) :
    Moves g (fail token cause : Eval α) (fail (token.move g) cause) := fun _ => rfl

theorem moves_get (name : Token) : Moves g (get name) (get (name.move g)) := by
  intro m
  cases lookup : m.chain.find? name.lexeme with
  | some value =>
    have moved : m.chain.find? (name.move g).lexeme = some value := lookup
    rw [get_bound lookup, get_bound moved]
    rfl
  | none =>
    have moved : m.chain.find? (name.move g).lexeme = none := lookup
    rw [get_unbound lookup, get_unbound moved]
    rfl

theorem moves_assign (name : Token) (value : Value) :
    Moves g (assign name value) (assign (name.move g) value) := by
  intro m
  cases assigned : m.chain.assign? name.lexeme value with
  | some chain =>
    have moved : m.chain.assign? (name.move g).lexeme value = some chain := assigned
    rw [assign_bound assigned, assign_bound moved]
    rfl
  | none =>
    have moved : m.chain.assign? (name.move g).lexeme value = none := assigned
    rw [assign_unbound assigned, assign_unbound moved]
    rfl

theorem moves_ofOperator (operator : Token) (result : Except RuntimeCause Value) :
    Moves g (ofOperator operator result) (ofOperator (operator.move g) result) := by
  cases result with
  | ok value => exact moves_pure value
  | error cause => exact moves_fail operator cause

theorem moves_whileTrue {test other : Eval Bool} {body again : Eval Unit} (tested : Moves g test other)
    (repeats : Moves g body again) (rounds : Nat) :
    Moves g (whileTrue test body rounds) (whileTrue other again rounds) := by
  induction rounds with
  | zero => exact moves_throw .exhausted
  | succ rounds ih =>
    refine tested.bind fun holds => ?_
    cases holds with
    | true => exact repeats.bind fun _ => ih
    | false => exact moves_pure ()

theorem moves_define (name : String) (value : Value) :
    Moves g (define name value) (define name value) := fun _ => rfl

theorem moves_print (value : Value) : Moves g (print value) (print value) := by
  intro m
  cases shown : value.text? with
  | some text => rw [print_shown shown]; rfl
  | none => rw [print_blank shown]; rfl

end Eval

variable {g : Position → Position}

namespace Expr

/-- A hole blames the token of no place, which stays where it is; so a proper expression is asked for. -/
theorem token_move {e : Expr} (proper : e.Proper) : (e.move g).token = e.token.move g := by
  induction e using Expr.inductionOn with
  | missing => exact proper.elim
  | grouping inner ih => exact ih proper
  | _ => rfl

/-- Values do not depend on places. Only what a failure blames does. -/
theorem moves_evaluate {e : Expr} (proper : e.Proper) :
    Eval.Moves g e.evaluate (e.move g).evaluate := by
  induction e using Expr.inductionOn with
  | missing => exact proper.elim
  | literal value token => exact Eval.moves_pure value
  | grouping inner ih =>
    have moves := Eval.moves_nest inner.token (ih proper)
    rwa [← token_move (e := inner) proper] at moves
  | unary operator right ih =>
    refine Eval.moves_nest operator ((ih proper.2).bind fun value => ?_)
    exact Eval.moves_ofOperator operator (applyUnary operator value)
  | binary left operator right left_ih right_ih =>
    refine (left_ih proper.2.1).bind fun a => (right_ih proper.2.2).bind fun b => ?_
    exact Eval.moves_ofOperator operator (applyBinary operator a b)
  | var name => exact Eval.moves_get name
  | assign name value ih =>
    refine Eval.moves_nest name ((ih proper).bind fun v => ?_)
    exact (Eval.moves_assign name v).bind fun _ => Eval.moves_pure v
  | call callee paren arguments => exact Eval.moves_fail paren .notCallable

theorem moves_holds {e : Expr} (proper : e.Proper) : Eval.Moves g e.holds (e.move g).holds :=
  (moves_evaluate proper).map Value.truthy

end Expr

namespace Stmt

theorem token_move {s : Stmt} (proper : s.Proper) : (s.move g).token = s.token.move g := by
  cases s with
  | missing => exact proper.elim
  | expression e | print e => exact Expr.token_move proper
  | ifThen condition | ifElse condition | loop condition => exact Expr.token_move proper.1
  | _ => rfl

theorem moves_executeAll {ss : List Stmt}
    (each : ∀ s ∈ ss, Eval.Moves g (s.execute rounds) ((s.move g).execute rounds)) :
    Eval.Moves g (executeAll rounds ss) (executeAll rounds (ss.map (move g))) := by
  induction ss with
  | nil => exact Eval.moves_pure ()
  | cons s ss ih =>
    rw [List.map_cons, executeAll, executeAll]
    exact (each s (by simp)).bind fun _ => ih fun s member => each s (by simp [member])

theorem moves_nest {s : Stmt} (proper : s.Proper) {p q : Eval Value} (inside : Eval.Moves g p q) :
    Eval.Moves g (Eval.nest s.token p) (Eval.nest (s.move g).token q) := by
  rw [token_move proper]
  exact Eval.moves_nest s.token inside

theorem moves_execute {s : Stmt} (proper : s.Proper) :
    Eval.Moves g (s.execute rounds) ((s.move g).execute rounds) := by
  have nothing : Eval.Moves g (pure Value.void) (pure .void) := Eval.moves_pure _
  induction s using Stmt.inductionOn with
  | missing => exact proper.elim
  | expression e =>
    rw [move, execute, execute]
    exact moves_nest (s := .expression e) proper (Expr.moves_evaluate proper)
  | print e =>
    rw [move, execute, execute]
    refine moves_nest (s := .print e) proper ((Expr.moves_evaluate proper).bind fun value => ?_)
    exact (Eval.moves_print value).bind fun _ => nothing
  | declare name =>
    rw [move, execute, execute]
    exact moves_nest (s := .declare name) proper
      ((Eval.moves_define name.lexeme .nil).bind fun _ => nothing)
  | define name e =>
    rw [move, execute, execute]
    refine moves_nest (s := .define name e) proper ((Expr.moves_evaluate proper).bind fun value => ?_)
    exact (Eval.moves_define name.lexeme value).bind fun _ => nothing
  | block brace body ih =>
    have inside := moves_executeAll fun s member => ih s member (properAll_iff.mp proper s member)
    rw [← moveAll_eq] at inside
    rw [move, execute, execute]
    exact moves_nest (s := .block brace body) proper
      ((Eval.moves_inNewScope inside).bind fun _ => nothing)
  | ifThen condition thenBranch ih =>
    rw [move, execute, execute]
    refine moves_nest (s := .ifThen condition thenBranch) proper
      ((Expr.moves_holds proper.1).bind fun holds => ?_)
    cases holds with
    | true => exact (ih proper.2).bind fun _ => nothing
    | false => exact nothing
  | ifElse condition thenBranch elseBranch then_ih else_ih =>
    rw [move, execute, execute]
    refine moves_nest (s := .ifElse condition thenBranch elseBranch) proper
      ((Expr.moves_holds proper.1).bind fun holds => ?_)
    cases holds with
    | true => exact (then_ih proper.2.1).bind fun _ => nothing
    | false => exact (else_ih proper.2.2).bind fun _ => nothing
  | loop condition body ih =>
    have again : Eval.Moves g (discard (body.execute rounds))
        (discard ((body.move g).execute rounds)) := (ih proper.2).map _
    rw [move, execute, execute]
    exact moves_nest (s := .loop condition body) proper
      ((Eval.moves_whileTrue (Expr.moves_holds proper.1) again rounds).bind fun _ => nothing)
  | bad start error =>
    rw [move, execute, execute]
    exact moves_nest (s := .bad start error) proper nothing

end Stmt

/-- Where a program stands in its file does not matter to what it prints or binds. -/
theorem moves_runProgram {program : List Stmt} (proper : ∀ s ∈ program, s.Proper) (rounds : Nat) :
    Eval.Moves g (runProgram rounds program) (runProgram rounds (program.map (Stmt.move g))) := by
  have from_value : ∀ value,
      Eval.Moves g (program.foldlM (fun _ s => s.execute rounds) value)
        ((program.map (Stmt.move g)).foldlM (fun _ s => s.execute rounds) value) := by
    induction program with
    | nil => exact fun value => Eval.moves_pure value
    | cons s program ih =>
      obtain ⟨here, others⟩ := List.forall_mem_cons.mp proper
      intro value
      rw [List.map_cons, List.foldlM_cons, List.foldlM_cons]
      exact (Stmt.moves_execute here).bind (ih others)
  exact from_value .void

end LoxLang

import LoxLang.Proofs.Machine.Triples
import LoxLang.Proofs.Grammar

/-! What a run does depends neither on what was printed before it nor on how many rounds its loops have left
over: it prints the same lines after those, and with more rounds it goes on only where it had run out of
them. -/
namespace LoxLang

namespace Machine

def after (lines : Array String) (m : Machine) : Machine := { m with output := lines ++ m.output }

/-- What a run gives on a machine that had printed these lines before. -/
def resultAfter (lines : Array String) : EStateM.Result Stop Machine α → EStateM.Result Stop Machine α
  | .ok a m => .ok a (m.after lines)
  | .error stop m => .error stop (m.after lines)

theorem after_none (m : Machine) : m.after #[] = m := by
  simp [after]

theorem withoutOutput_after (m : Machine) : m.withoutOutput.after m.output = m := by
  simp [after, withoutOutput]

end Machine

namespace Eval

/-- After any lines the second part does what the first one does, unless that runs out of rounds and is
`short` of them. -/
def Repeats (short : Prop) (p q : Eval α) : Prop :=
  ∀ lines m, q (m.after lines) = Machine.resultAfter lines (p m) ∨
    short ∧ ∃ m', p m = .error .exhausted m'

variable {short : Prop}

theorem repeats_pure (a : α) : Repeats short (pure a) (pure a) := fun _ _ => .inl rfl

theorem repeats_throw (stop : Stop) : Repeats short (throw stop : Eval α) (throw stop) := fun _ _ => .inl rfl

/-- A first part that has run out of rounds settles the whole: nothing is asked of the second one. -/
theorem Repeats.bind {p q : Eval α} {next other : α → Eval β} (first : Repeats short p q)
    (later : ∀ a, Repeats short (next a) (other a)) : Repeats short (p >>= next) (q >>= other) := by
  intro lines m
  rcases first lines m with same | ⟨few, m', out⟩
  · cases done : p m with
    | ok a m' =>
      rw [done] at same
      rw [bind_of_ok done, bind_of_ok same]
      exact later a lines m'
    | error stop m' =>
      rw [done] at same
      rw [bind_of_error done, bind_of_error same]
      exact .inl rfl
  · exact .inr ⟨few, m', bind_of_error out⟩

theorem Repeats.map {p q : Eval α} (f : α → β) (repeats : Repeats short p q) :
    Repeats short (f <$> p) (f <$> q) := by
  rw [← bind_pure_comp f p, ← bind_pure_comp f q]
  exact repeats.bind fun a => repeats_pure (f a)

theorem repeats_nest {p q : Eval α} (token : Token) (repeats : Repeats short p q) :
    Repeats short (nest token p) (nest token q) := by
  intro lines m
  by_cases roomy : m.Roomy
  · have further : (m.after lines).Roomy := roomy
    rcases repeats lines m.deeper with same | ⟨few, m', out⟩
    · left
      change q (m.after lines).deeper = _ at same
      cases done : p m.deeper with
      | ok a m' =>
        rw [done] at same
        rw [nest_of_ok token roomy done, nest_of_ok token further same]
        rfl
      | error stop m' =>
        rw [done] at same
        rw [nest_of_error token roomy done, nest_of_error token further same]
        rfl
    · exact .inr ⟨few, m'.shallower, nest_of_error token roomy out⟩
  · have deep : m.limit < m.depth + 1 := Nat.lt_of_not_le roomy
    have further : (m.after lines).limit < (m.after lines).depth + 1 := deep
    left
    rw [nest, nest, if_pos deep, if_pos further]
    rfl

theorem repeats_inNewScope {p q : Eval α} (repeats : Repeats short p q) :
    Repeats short (inNewScope p) (inNewScope q) := by
  intro lines m
  rcases repeats lines m.opened with same | ⟨few, m', out⟩
  · left
    change q (m.after lines).opened = _ at same
    cases done : p m.opened with
    | ok a m' =>
      rw [done] at same
      rw [inNewScope_of_ok done, inNewScope_of_ok same]
      rfl
    | error stop m' =>
      rw [done] at same
      rw [inNewScope_of_error done, inNewScope_of_error same]
      rfl
  · exact .inr ⟨few, m'.closed, inNewScope_of_error out⟩

theorem repeats_get (name : Token) : Repeats short (get name) (get name) := by
  intro lines m
  left
  cases lookup : m.chain.find? name.lexeme with
  | some value =>
    have further : (m.after lines).chain.find? name.lexeme = some value := lookup
    rw [get_bound lookup, get_bound further]
    rfl
  | none =>
    have further : (m.after lines).chain.find? name.lexeme = none := lookup
    rw [get_unbound lookup, get_unbound further]
    rfl

theorem repeats_assign (name : Token) (value : Value) :
    Repeats short (assign name value) (assign name value) := by
  intro lines m
  left
  cases assigned : m.chain.assign? name.lexeme value with
  | some chain =>
    have further : (m.after lines).chain.assign? name.lexeme value = some chain := assigned
    rw [assign_bound assigned, assign_bound further]
    rfl
  | none =>
    have further : (m.after lines).chain.assign? name.lexeme value = none := assigned
    rw [assign_unbound assigned, assign_unbound further]
    rfl

theorem repeats_define (name : String) (value : Value) :
    Repeats short (define name value) (define name value) := fun _ _ => .inl rfl

theorem repeats_print (value : Value) : Repeats short (print value) (print value) := by
  intro lines m
  left
  cases shown : value.text? with
  | some text =>
    have pushed : lines ++ m.output.push text = (lines ++ m.output).push text := Array.append_push
    rw [print_shown shown, print_shown shown, Machine.resultAfter, Machine.after, Machine.after, pushed]
  | none =>
    rw [print_blank shown, print_blank shown]
    rfl

theorem repeats_ofOperator (operator : Token) (result : Except RuntimeCause Value) :
    Repeats short (ofOperator operator result) (ofOperator operator result) := by
  cases result with
  | ok value => exact repeats_pure value
  | error cause => exact repeats_throw _

/-- A loop that is given more rounds than before goes on where it had run out of them. -/
theorem repeats_whileTrue {test other : Eval Bool} {body again : Eval Unit}
    (tested : Repeats short test other) (repeats : Repeats short body again) (enough : rounds ≤ more)
    (fewer : rounds < more → short) :
    Repeats short (whileTrue test body rounds) (whileTrue other again more) := by
  induction rounds generalizing more with
  | zero =>
    cases more with
    | zero => exact repeats_throw .exhausted
    -- The one place where the two runs part.
    | succ more => exact fun _ m => .inr ⟨fewer (Nat.zero_lt_succ more), m, rfl⟩
  | succ rounds ih =>
    obtain ⟨more, rfl⟩ := Nat.exists_eq_succ_of_ne_zero (Nat.ne_zero_of_lt enough)
    refine tested.bind fun holds => ?_
    cases holds with
    | true =>
      refine repeats.bind fun _ => ih (Nat.le_of_succ_le_succ enough) fun less => ?_
      exact fewer (Nat.succ_lt_succ less)
    | false => exact repeats_pure ()

end Eval

variable {short : Prop} {rounds more : Nat}

/-- Expressions have no loops, so they cannot be `short` of rounds. -/
theorem Expr.repeats_evaluate (e : Expr) : Eval.Repeats short e.evaluate e.evaluate := by
  induction e using Expr.inductionOn with
  | missing => exact Eval.repeats_throw _
  | literal value token => exact Eval.repeats_pure value
  | grouping inner ih => exact Eval.repeats_nest inner.token ih
  | unary operator right ih =>
    refine Eval.repeats_nest operator (ih.bind fun value => ?_)
    exact Eval.repeats_ofOperator operator (applyUnary operator value)
  | binary left operator right left_ih right_ih =>
    refine left_ih.bind fun a => right_ih.bind fun b => ?_
    exact Eval.repeats_ofOperator operator (applyBinary operator a b)
  | var name => exact Eval.repeats_get name
  | assign name value ih =>
    refine Eval.repeats_nest name (ih.bind fun v => ?_)
    exact (Eval.repeats_assign name v).bind fun _ => Eval.repeats_pure v
  | call callee paren arguments => exact Eval.repeats_throw _

theorem Expr.repeats_holds (e : Expr) : Eval.Repeats short e.holds e.holds :=
  e.repeats_evaluate.map Value.truthy

namespace Stmt

variable (enough : rounds ≤ more) (fewer : rounds < more → short)
include enough fewer

omit enough fewer in
theorem repeats_executeAll {ss : List Stmt}
    (each : ∀ s ∈ ss, Eval.Repeats short (s.execute rounds) (s.execute more)) :
    Eval.Repeats short (executeAll rounds ss) (executeAll more ss) := by
  induction ss with
  | nil => exact Eval.repeats_pure ()
  | cons s ss ih =>
    rw [executeAll, executeAll]
    exact (each s (by simp)).bind fun _ => ih fun s member => each s (by simp [member])

/-- Both numbers of rounds reach every loop inside the statement, and the fewer of them may run out there only.
-/
theorem repeats_execute (s : Stmt) : Eval.Repeats short (s.execute rounds) (s.execute more) := by
  have nothing : Eval.Repeats short (pure Value.void) (pure .void) := Eval.repeats_pure _
  induction s using Stmt.inductionOn with
  | missing =>
    rw [execute, execute]
    exact Eval.repeats_nest _ (Eval.repeats_throw _)
  | expression e =>
    rw [execute, execute]
    exact Eval.repeats_nest _ e.repeats_evaluate
  | print e =>
    rw [execute, execute]
    refine Eval.repeats_nest _ (e.repeats_evaluate.bind fun value => ?_)
    exact (Eval.repeats_print value).bind fun _ => nothing
  | declare name =>
    rw [execute, execute]
    exact Eval.repeats_nest _ ((Eval.repeats_define name.lexeme .nil).bind fun _ => nothing)
  | define name e =>
    rw [execute, execute]
    refine Eval.repeats_nest _ (e.repeats_evaluate.bind fun value => ?_)
    exact (Eval.repeats_define name.lexeme value).bind fun _ => nothing
  | block brace body ih =>
    rw [execute, execute]
    have inside := repeats_executeAll fun s member => ih s member
    exact Eval.repeats_nest _ ((Eval.repeats_inNewScope inside).bind fun _ => nothing)
  | ifThen condition thenBranch ih =>
    rw [execute, execute]
    refine Eval.repeats_nest _ (condition.repeats_holds.bind fun holds => ?_)
    cases holds with
    | true => exact ih.bind fun _ => nothing
    | false => exact nothing
  | ifElse condition thenBranch elseBranch then_ih else_ih =>
    rw [execute, execute]
    refine Eval.repeats_nest _ (condition.repeats_holds.bind fun holds => ?_)
    cases holds with
    | true => exact then_ih.bind fun _ => nothing
    | false => exact else_ih.bind fun _ => nothing
  | loop condition body ih =>
    rw [execute, execute]
    have again : Eval.Repeats short (discard (body.execute rounds)) (discard (body.execute more)) :=
      ih.map _
    have turns := Eval.repeats_whileTrue condition.repeats_holds again enough fewer
    exact Eval.repeats_nest _ (turns.bind fun _ => nothing)
  | bad start error =>
    rw [execute, execute]
    exact Eval.repeats_nest _ nothing

end Stmt

/-- With `rounds = more` nothing is short, which leaves the independence of the output alone. -/
theorem repeats_runProgram (program : List Stmt) (enough : rounds ≤ more) :
    Eval.Repeats (rounds < more) (runProgram rounds program) (runProgram more program) := by
  have from_value : ∀ value, Eval.Repeats (rounds < more)
      (program.foldlM (fun _ s => s.execute rounds) value)
      (program.foldlM (fun _ s => s.execute more) value) := by
    induction program with
    | nil => exact fun value => Eval.repeats_pure value
    | cons s program ih =>
      intro value
      rw [List.foldlM_cons, List.foldlM_cons]
      exact (Stmt.repeats_execute enough id s).bind ih
  exact from_value .void

/-- A run after other output prints what it prints without it, and does the same. -/
theorem runProgram_after (rounds : Nat) (program : List Stmt) (m : Machine) :
    runProgram rounds program m = Machine.resultAfter m.output (runProgram rounds program m.withoutOutput) := by
  rcases repeats_runProgram program (Nat.le_refl rounds) m.output m.withoutOutput with same | ⟨less, _⟩
  · rwa [Machine.withoutOutput_after] at same
  · exact absurd less (Nat.lt_irrefl rounds)

/-- More rounds change nothing about a run that does not run out of them. -/
theorem runProgram_more (enough : rounds ≤ more) (program : List Stmt) (m : Machine)
    (ends : ∀ m', runProgram rounds program m ≠ .error .exhausted m') :
    runProgram more program m = runProgram rounds program m := by
  rcases repeats_runProgram program enough #[] m with same | ⟨_, m', out⟩
  · rw [Machine.after_none] at same
    rw [same]
    cases runProgram rounds program m with
    | ok v m' => rw [Machine.resultAfter, Machine.after_none]
    | error stop m' => rw [Machine.resultAfter, Machine.after_none]
  · exact absurd out (ends m')

end LoxLang

import LoxLang.Proofs.Grammar
import LoxLang.Proofs.Machine.Visits
import LoxLang.Tree.Printer

/-! Runs of proper trees are safe. A proper tree has no holes, its literals are plain values, and its
operators are operators; such a tree can be printed. Running it on a machine whose scopes hold plain
values gives plain values and keeps the scopes plain, stops with no fault, and blames no operator for
not being one. This holds of the run as a whole and of every part that it comes to. -/
namespace LoxLang

/-- The values that a program can compute with. -/
def Value.Plain : Value → Prop
  | nil | bool _ | num _ | str _ => True
  | callable _ | void | missing => False

theorem Value.Plain.text {value : Value} (plain : value.Plain) : ∃ text, value.text? = some text := by
  cases value with
  | missing => exact plain.elim
  | _ => exact ⟨_, rfl⟩

def Scope.Plain (scope : Scope) : Prop :=
  ∀ binding ∈ scope, binding.2.Plain

namespace Scope

variable {scope : Scope}

theorem plain_find (plain : scope.Plain) (found : scope.find? name = some value) : value.Plain := by
  unfold find? at found
  rw [List.lookup_eq_some_iff] at found
  obtain ⟨earlier, later, rfl, _⟩ := found
  exact plain (name, value) (by simp)

theorem plain_set (plain : scope.Plain) (new : value.Plain) : (scope.set name value).Plain := by
  induction scope with
  | nil => simpa [set, Plain] using new
  | cons binding rest ih =>
    obtain ⟨bound, old⟩ := binding
    obtain ⟨here, others⟩ := List.forall_mem_cons.mp plain
    rw [set]
    split
    · exact List.forall_mem_cons.mpr ⟨new, others⟩
    · exact List.forall_mem_cons.mpr ⟨here, ih others⟩

end Scope

structure Chain.Plain (chain : Chain) : Prop where
  locals : ∀ scope ∈ chain.locals, Scope.Plain scope
  globals : chain.globals.Plain

namespace Chain

variable {chain : Chain}

theorem plain_find (plain : chain.Plain) (found : chain.find? name = some value) : value.Plain := by
  rw [find?, Option.or_eq_some_iff] at found
  rcases found with inner | ⟨_, global⟩
  · obtain ⟨scope, member, found⟩ := List.exists_of_findSome?_eq_some inner
    exact Scope.plain_find (plain.locals scope member) found
  · exact Scope.plain_find plain.globals global

theorem plain_define (plain : chain.Plain) (new : value.Plain) : (chain.define name value).Plain := by
  obtain ⟨locals, globals⟩ := chain
  cases locals with
  | nil => exact ⟨plain.locals, Scope.plain_set plain.globals new⟩
  | cons inner outer =>
    have others := List.forall_mem_cons.mp plain.locals
    exact ⟨List.forall_mem_cons.mpr ⟨Scope.plain_set others.1 new, others.2⟩, plain.globals⟩

theorem plain_assignIn (plain : ∀ scope ∈ scopes, Scope.Plain scope) (new : value.Plain)
    (assigned : assignIn? name value scopes = some changed) :
    ∀ scope ∈ changed, Scope.Plain scope := by
  induction scopes generalizing changed with
  | nil => simp [assignIn?] at assigned
  | cons scope outer ih =>
    obtain ⟨here, others⟩ := List.forall_mem_cons.mp plain
    rw [assignIn?] at assigned
    split at assigned
    · obtain rfl := Option.some.inj assigned
      exact List.forall_mem_cons.mpr ⟨Scope.plain_set here new, others⟩
    · obtain ⟨later, found, rfl⟩ := Option.map_eq_some_iff.mp assigned
      exact List.forall_mem_cons.mpr ⟨here, ih others found⟩

theorem plain_assign (plain : chain.Plain) (new : value.Plain)
    (assigned : chain.assign? name value = some changed) : changed.Plain := by
  unfold assign? at assigned
  split at assigned
  · rename_i found
    obtain rfl := Option.some.inj assigned
    exact ⟨plain_assignIn plain.locals new found, plain.globals⟩
  · split at assigned
    · obtain rfl := Option.some.inj assigned
      exact ⟨plain.locals, Scope.plain_set plain.globals new⟩
    · contradiction

theorem plain_push (plain : chain.Plain) : chain.push.Plain :=
  ⟨List.forall_mem_cons.mpr ⟨by simp [Scope.Plain], plain.locals⟩, plain.globals⟩

theorem plain_pop (plain : chain.Plain) : chain.pop.Plain :=
  ⟨fun scope member => plain.locals scope (List.mem_of_mem_tail member), plain.globals⟩

end Chain

def Machine.Plain (m : Machine) : Prop := m.chain.Plain

/-- The failure is not that an operator is none. -/
def RuntimeCause.Ordinary (cause : RuntimeCause) : Prop :=
  cause.message ≠ "Invalid unary operator." ∧ cause.message ≠ "Invalid binary operator."

namespace RuntimeCause

theorem message_undefinedVariable (name : String) :
    (undefinedVariable name).message.toList.head? = some 'U' := by
  change (toString "Undefined variable '" ++ toString name ++ toString "'.").toList.head? = _
  have begins : (toString "Undefined variable '").toList = 'U' :: "ndefined variable '".toList := by
    decide
  rw [String.toList_append, String.toList_append, begins]
  rfl

/-- No other failure has the text of the two, whatever name it tells of. -/
theorem ordinary_of_ne {cause : RuntimeCause} (notUnary : cause ≠ invalidUnary)
    (notBinary : cause ≠ invalidBinary) : cause.Ordinary := by
  cases cause with
  | undefinedVariable name =>
    -- The name can be anything, so the messages are told apart by their first letters.
    have first := message_undefinedVariable name
    constructor
    · intro same
      rw [same] at first
      revert first
      decide
    · intro same
      rw [same] at first
      revert first
      decide
  | invalidUnary => contradiction
  | invalidBinary => contradiction
  | _ => constructor <;> decide

end RuntimeCause

/-- A run stops for an ordinary reason: a tree without holes meets no fault. -/
def Stop.Ordinary : Stop → Prop
  | error e => e.cause.Ordinary
  | fault _ => False
  | exhausted => True

/-- How a run may end: with a value that is allowed, or for an ordinary reason, and in both cases with
plain values in all scopes. -/
def EndsWell (allowed : α → Prop) : EStateM.Result Stop Machine α → Prop
  | .ok a m => allowed a ∧ m.Plain
  | .error stop m => stop.Ordinary ∧ m.Plain

namespace Eval

/-- On every machine whose scopes are plain, the part ends well. -/
def Safe (allowed : α → Prop) (part : Eval α) : Prop :=
  ∀ m : Machine, m.Plain → EndsWell allowed (part m)

/-- Safety is a triple, so the rules for triples serve to prove it. -/
theorem safe_iff {part : Eval α} : Safe allowed part ↔ Meets Machine.Plain part
    (fun a m => allowed a ∧ m.Plain) (fun stop m => stop.Ordinary ∧ m.Plain) := by
  constructor
  all_goals
    intro safe m plain
    have ends := safe m plain
    cases done : part m <;> rw [done] at ends <;> exact ends

variable {allowed : α → Prop}

theorem safe_pure (ok : allowed a) : Safe allowed (pure a) := fun _ plain => ⟨ok, plain⟩

theorem Safe.bind {first : Eval α} {second : α → Eval β} {later : β → Prop} (safe : Safe allowed first)
    (next : ∀ a, allowed a → Safe later (second a)) : Safe later (first >>= second) :=
  safe_iff.mpr ((safe_iff.mp safe).bind fun a m between => safe_iff.mp (next a between.1) m between.2)

theorem Safe.map {part : Eval α} {f : α → β} {later : β → Prop} (safe : Safe allowed part)
    (image : ∀ a, allowed a → later (f a)) : Safe later (f <$> part) :=
  safe_iff.mpr (Meets.map ((safe_iff.mp safe).mono (fun _ plain => plain)
    (fun a _ done => ⟨image a done.1, done.2⟩) (fun _ _ stopped => stopped)))

theorem Safe.weaken {part : Eval α} {later : α → Prop} (safe : Safe allowed part)
    (wider : ∀ a, allowed a → later a) : Safe later part :=
  safe_iff.mpr ((safe_iff.mp safe).mono (fun _ plain => plain)
    (fun a _ done => ⟨wider a done.1, done.2⟩) (fun _ _ stopped => stopped))

/-- To be too deep is an ordinary failure; a proper tree may end so. -/
theorem safe_nest {part : Eval α} (token : Token) (safe : Safe allowed part) :
    Safe allowed (nest token part) := by
  rw [safe_iff] at safe ⊢
  apply meets_nest
  · intro m plain _
    exact ⟨RuntimeCause.ordinary_of_ne (by simp) (by simp), plain⟩
  · refine safe.mono ?_ (fun _ _ done => done) (fun _ _ stopped => stopped)
    rintro _ ⟨outer, plain, _, rfl⟩
    exact plain

theorem safe_inNewScope {part : Eval α} (safe : Safe allowed part) :
    Safe allowed (inNewScope part) := by
  rw [safe_iff] at safe ⊢
  apply meets_inNewScope
  refine safe.mono ?_ (fun _ _ done => ⟨done.1, Chain.plain_pop done.2⟩)
    (fun _ _ stopped => ⟨stopped.1, Chain.plain_pop stopped.2⟩)
  rintro _ ⟨outer, plain, rfl⟩
  exact Chain.plain_push plain

theorem safe_fail {token : Token} (ordinary : cause.Ordinary) :
    Safe allowed (fail token cause) := fun _ plain => ⟨ordinary, plain⟩

theorem ordinary_undefined (name : Token) : (Stop.error (.undefined name)).Ordinary :=
  RuntimeCause.ordinary_of_ne (by simp [RuntimeError.undefined]) (by simp [RuntimeError.undefined])

theorem safe_get (name : Token) : Safe Value.Plain (get name) :=
  safe_iff.mpr (meets_get (fun _ _ plain found => ⟨Chain.plain_find plain found, plain⟩)
    (fun _ plain _ => ⟨ordinary_undefined name, plain⟩))

theorem safe_assign (name : Token) (new : value.Plain) : Safe (fun _ => True) (assign name value) :=
  safe_iff.mpr (meets_assign
    (fun _ _ plain assigned => ⟨trivial, Chain.plain_assign plain new assigned⟩)
    (fun _ plain _ => ⟨ordinary_undefined name, plain⟩))

theorem safe_define (name : String) (new : value.Plain) :
    Safe (fun _ => True) (define name value) :=
  fun _ plain => ⟨trivial, Chain.plain_define plain new⟩

theorem safe_print (plain : value.Plain) : Safe (fun _ => True) (print value) := by
  obtain ⟨text, shown⟩ := plain.text
  refine safe_iff.mpr (meets_print (fun _ _ plain _ => ⟨trivial, plain⟩) fun _ _ blank => ?_)
  rw [shown] at blank
  contradiction

/-- What an operator may give: a plain value, or an ordinary failure. -/
def Answers : Except RuntimeCause Value → Prop
  | .ok value => value.Plain
  | .error cause => cause.Ordinary

theorem safe_ofOperator (operator : Token) (answers : Answers result) :
    Safe Value.Plain (ofOperator operator result) := by
  cases result with
  | ok value => exact safe_pure answers
  | error cause => exact safe_fail answers

theorem safe_whileTrue {test : Eval Bool} {body : Eval Unit} (tested : Safe (fun _ => True) test)
    (again : Safe (fun _ => True) body) (rounds : Nat) :
    Safe (fun _ => True) (whileTrue test body rounds) := by
  rw [safe_iff] at tested again ⊢
  apply meets_whileTrue
  · refine tested.mono (fun _ plain => plain) ?_ (fun _ _ stopped => stopped)
    intro b m done
    cases b with
    | true => exact done.2
    | false => exact done
  · exact again.mono (fun _ plain => plain) (fun _ _ done => done.2) (fun _ _ stopped => stopped)
  · exact fun _ plain => ⟨trivial, plain⟩

/-- The two unary operators fail on wrong operands, but never for not being operators. -/
theorem answers_unary (kind : operator.kind = .bang ∨ operator.kind = .minus) (right : Value) :
    Answers (applyUnary operator right) := by
  rcases kind with kind | kind
  · simp [applyUnary, kind, Answers, Value.Plain]
  · cases right with
    | num x => simp [applyUnary, kind, Answers, Value.Plain]
    | _ =>
      simp only [applyUnary, kind]
      exact RuntimeCause.ordinary_of_ne (by simp) (by simp)

theorem answers_add (left right : Value) : Answers (add left right) := by
  unfold add
  split
  · trivial
  · trivial
  · exact RuntimeCause.ordinary_of_ne (by simp) (by simp)

theorem answers_onNumbers (each : ∀ a b, Answers (f a b)) (left right : Value) :
    Answers (onNumbers f left right) := by
  unfold onNumbers
  split
  · exact each _ _
  · exact RuntimeCause.ordinary_of_ne (by simp) (by simp)

theorem answers_divide (a b : Float) : Answers (divide a b) := by
  unfold divide
  split
  · exact RuntimeCause.ordinary_of_ne (by simp) (by simp)
  · trivial

/-- Every kind that has a precedence is a binary operator to the machine too. -/
theorem answers_binary (infixed : 0 < operator.kind.precedence) (left right : Value) :
    Answers (applyBinary operator left right) := by
  unfold applyBinary
  split
  case h_1 | h_2 => trivial
  case h_3 => exact answers_add left right
  case h_6 => exact answers_onNumbers answers_divide left right
  case h_11 =>
    rename_i kind
    cases same : operator.kind <;> simp_all [TokenKind.precedence]
  all_goals
    refine answers_onNumbers ?_ left right
    exact fun _ _ => trivial

end Eval

namespace Expr

mutual

/-- The expression has no hole, its literals are plain, and its operators are operators. -/
def Proper : Expr → Prop
  | missing => False
  | literal value _ => value.Plain
  | grouping inner => inner.Proper
  | unary operator right => (operator.kind = .bang ∨ operator.kind = .minus) ∧ right.Proper
  | binary left operator right => 0 < operator.kind.precedence ∧ left.Proper ∧ right.Proper
  | var _ => True
  | assign _ value => value.Proper
  | call callee _ arguments => callee.Proper ∧ ProperAll arguments

def ProperAll : List Expr → Prop
  | [] => True
  | e :: es => e.Proper ∧ ProperAll es

end

theorem properAll_iff {es : List Expr} : ProperAll es ↔ ∀ e ∈ es, e.Proper := by
  induction es with
  | nil => simp [ProperAll]
  | cons e es ih => simp [ProperAll, ih]

/-- An expression never gives the empty value that only a statement may give. -/
theorem safe_evaluate {e : Expr} (proper : e.Proper) : Eval.Safe Value.Plain e.evaluate := by
  induction e using Expr.inductionOn with
  | missing => exact proper.elim
  | literal value token => exact Eval.safe_pure proper
  | grouping inner ih => exact Eval.safe_nest _ (ih proper)
  | unary operator right ih =>
    refine Eval.safe_nest _ ((ih proper.2).bind fun value _ => ?_)
    exact Eval.safe_ofOperator _ (Eval.answers_unary proper.1 value)
  | binary left operator right left_ih right_ih =>
    refine (left_ih proper.2.1).bind fun a _ => (right_ih proper.2.2).bind fun b _ => ?_
    exact Eval.safe_ofOperator _ (Eval.answers_binary proper.1 a b)
  | var name => exact Eval.safe_get name
  | assign name value ih =>
    refine Eval.safe_nest _ ((ih proper).bind fun v plain => ?_)
    exact (Eval.safe_assign name plain).bind fun _ _ => Eval.safe_pure plain
  | call callee paren arguments =>
    exact Eval.safe_fail (RuntimeCause.ordinary_of_ne (by simp) (by simp))

theorem safe_holds {e : Expr} (proper : e.Proper) : Eval.Safe (fun _ => True) e.holds :=
  (safe_evaluate proper).map fun _ _ => trivial

theorem printedAll_ok {es : List Expr} (each : ∀ e ∈ es, ∃ text, e.printed = .ok text) :
    ∃ texts, printedAll es = .ok texts := by
  induction es with
  | nil => exact ⟨[], rfl⟩
  | cons e es ih =>
    obtain ⟨text, here⟩ := each e (by simp)
    obtain ⟨texts, later⟩ := ih fun e member => each e (by simp [member])
    exact ⟨text :: texts, by simp [printedAll, here, later, bind, Except.bind, pure, Except.pure]⟩

theorem Proper.printed_ok {e : Expr} (proper : e.Proper) : ∃ text, e.printed = .ok text := by
  induction e using Expr.inductionOn with
  | missing => exact proper.elim
  | literal value token =>
    obtain ⟨text, shown⟩ := Value.Plain.text proper
    exact ⟨text, by simp [printed, shown]⟩
  | grouping inner ih =>
    obtain ⟨text, shown⟩ := ih proper
    exact ⟨_, by rw [printed, shown]; rfl⟩
  | unary operator right ih =>
    obtain ⟨text, shown⟩ := ih proper.2
    exact ⟨_, by rw [printed, shown]; rfl⟩
  | binary left operator right left_ih right_ih =>
    obtain ⟨first, left_shown⟩ := left_ih proper.2.1
    obtain ⟨second, right_shown⟩ := right_ih proper.2.2
    exact ⟨_, by rw [printed, left_shown, right_shown]; rfl⟩
  | var name => exact ⟨_, rfl⟩
  | assign name value ih =>
    obtain ⟨text, shown⟩ := ih proper
    exact ⟨_, by rw [printed, shown]; rfl⟩
  | call callee paren arguments callee_ih arguments_ih =>
    obtain ⟨text, shown⟩ := callee_ih proper.1
    obtain ⟨texts, inside⟩ := printedAll_ok fun e member =>
      arguments_ih e member (properAll_iff.mp proper.2 e member)
    exact ⟨_, by rw [printed, shown, inside]; rfl⟩

end Expr

namespace Stmt

mutual

/-- The statement has no hole, and the expressions in it are proper. -/
def Proper : Stmt → Prop
  | missing => False
  | expression e | print e | define _ e => e.Proper
  | declare _ | bad .. => True
  | block _ body => ProperAll body
  | ifThen condition thenBranch => condition.Proper ∧ thenBranch.Proper
  | ifElse condition thenBranch elseBranch =>
    condition.Proper ∧ thenBranch.Proper ∧ elseBranch.Proper
  | loop condition body => condition.Proper ∧ body.Proper

def ProperAll : List Stmt → Prop
  | [] => True
  | s :: ss => s.Proper ∧ ProperAll ss

end

theorem properAll_iff {ss : List Stmt} : ProperAll ss ↔ ∀ s ∈ ss, s.Proper := by
  induction ss with
  | nil => simp [ProperAll]
  | cons s ss ih => simp [ProperAll, ih]

/-- What a statement may give: a plain value, or none. -/
def Gives (value : Value) : Prop := value.Plain ∨ value = .void

theorem safe_executeAll {ss : List Stmt} (each : ∀ s ∈ ss, Eval.Safe Gives (s.execute rounds)) :
    Eval.Safe (fun _ => True) (executeAll rounds ss) := by
  induction ss with
  | nil => exact Eval.safe_pure trivial
  | cons s ss ih =>
    rw [executeAll]
    exact (each s (by simp)).bind fun _ _ => ih fun s member => each s (by simp [member])

/-- Loops included: `whileTrue` keeps the scopes plain in each of its rounds. -/
theorem safe_execute {s : Stmt} (proper : s.Proper) : Eval.Safe Gives (s.execute rounds) := by
  have nothing : Eval.Safe Gives (pure .void) := Eval.safe_pure (.inr rfl)
  induction s using Stmt.inductionOn with
  | missing => exact proper.elim
  | expression e =>
    rw [execute]
    exact Eval.safe_nest _ ((Expr.safe_evaluate proper).weaken fun _ plain => .inl plain)
  | print e =>
    rw [execute]
    refine Eval.safe_nest _ ((Expr.safe_evaluate proper).bind fun value plain => ?_)
    exact (Eval.safe_print plain).bind fun _ _ => nothing
  | declare name =>
    rw [execute]
    have unset : Value.Plain .nil := trivial
    exact Eval.safe_nest _ ((Eval.safe_define _ unset).bind fun _ _ => nothing)
  | define name e =>
    rw [execute]
    refine Eval.safe_nest _ ((Expr.safe_evaluate proper).bind fun value plain => ?_)
    exact (Eval.safe_define _ plain).bind fun _ _ => nothing
  | block brace body ih =>
    have inside := safe_executeAll fun s member => ih s member (properAll_iff.mp proper s member)
    rw [execute]
    exact Eval.safe_nest _ ((Eval.safe_inNewScope inside).bind fun _ _ => nothing)
  | ifThen condition thenBranch ih =>
    rw [execute]
    refine Eval.safe_nest _ ((Expr.safe_holds proper.1).bind fun holds _ => ?_)
    cases holds with
    | true => exact (ih proper.2).bind fun _ _ => nothing
    | false => exact nothing
  | ifElse condition thenBranch elseBranch then_ih else_ih =>
    rw [execute]
    refine Eval.safe_nest _ ((Expr.safe_holds proper.1).bind fun holds _ => ?_)
    cases holds with
    | true => exact (then_ih proper.2.1).bind fun _ _ => nothing
    | false => exact (else_ih proper.2.2).bind fun _ _ => nothing
  | loop condition body ih =>
    have again : Eval.Safe (fun _ => True) (discard (body.execute rounds)) :=
      (ih proper.2).map fun _ _ => trivial
    rw [execute]
    refine Eval.safe_nest _ ?_
    exact (Eval.safe_whileTrue (Expr.safe_holds proper.1) again rounds).bind fun _ _ => nothing
  | bad start error =>
    rw [execute]
    exact Eval.safe_nest _ nothing

theorem printedAll_ok {ss : List Stmt} (each : ∀ s ∈ ss, ∃ text, s.printed = .ok text) :
    ∃ texts, printedAll ss = .ok texts := by
  induction ss with
  | nil => exact ⟨[], rfl⟩
  | cons s ss ih =>
    obtain ⟨text, here⟩ := each s (by simp)
    obtain ⟨texts, later⟩ := ih fun s member => each s (by simp [member])
    exact ⟨text :: texts, by rw [printedAll, here, later]; rfl⟩

theorem Proper.printed_ok {s : Stmt} (proper : s.Proper) : ∃ text, s.printed = .ok text := by
  induction s using Stmt.inductionOn with
  | missing => exact proper.elim
  | expression e | print e | define name e =>
    obtain ⟨text, shown⟩ := Expr.Proper.printed_ok proper
    exact ⟨_, by rw [printed, shown]; rfl⟩
  | declare | bad => exact ⟨_, rfl⟩
  | block brace body ih =>
    obtain ⟨texts, inside⟩ := printedAll_ok fun s member =>
      ih s member (properAll_iff.mp proper s member)
    exact ⟨_, by rw [printed, inside]; rfl⟩
  | ifThen condition thenBranch ih =>
    obtain ⟨text, shown⟩ := proper.1.printed_ok
    obtain ⟨branch, branch_shown⟩ := ih proper.2
    exact ⟨_, by rw [printed, shown, branch_shown]; rfl⟩
  | ifElse condition thenBranch elseBranch then_ih else_ih =>
    obtain ⟨text, shown⟩ := proper.1.printed_ok
    obtain ⟨first, then_shown⟩ := then_ih proper.2.1
    obtain ⟨second, else_shown⟩ := else_ih proper.2.2
    exact ⟨_, by rw [printed, shown, then_shown, else_shown]; rfl⟩
  | loop condition body ih =>
    obtain ⟨text, shown⟩ := proper.1.printed_ok
    obtain ⟨inside, body_shown⟩ := ih proper.2
    exact ⟨_, by rw [printed, shown, body_shown]; rfl⟩

end Stmt

section Programs

variable {program : List Stmt} (proper : ∀ s ∈ program, s.Proper)
include proper

theorem printProgram_ok : ∃ text, printProgram program = .ok text := by
  obtain ⟨texts, printed⟩ := Stmt.printedAll_ok fun s member => (proper s member).printed_ok
  exact ⟨_, by rw [printProgram, printed]; rfl⟩

/-- A program may also give no value, as its last statement may be one that gives none. -/
theorem safe_runProgram (rounds : Nat) : Eval.Safe Stmt.Gives (runProgram rounds program) := by
  -- The value of the statements so far is what the fold carries along.
  have from_value : ∀ value, Stmt.Gives value →
      Eval.Safe Stmt.Gives (program.foldlM (fun _ s => s.execute rounds) value) := by
    induction program with
    | nil => exact fun value given => Eval.safe_pure given
    | cons s program ih =>
      obtain ⟨here, others⟩ := List.forall_mem_cons.mp proper
      intro value given
      rw [List.foldlM_cons]
      exact (Stmt.safe_execute here).bind fun value given => ih others value given
  exact from_value .void (.inr rfl)

end Programs

namespace Task

def Proper : Task → Prop
  | evaluate e => e.Proper
  | execute s => s.Proper

/-- An expression has a plain value, a statement may also give none. -/
def Gives : Task → Value → Prop
  | evaluate _ => Value.Plain
  | execute _ => Stmt.Gives

theorem Proper.safe {task : Task} (proper : task.Proper) : Eval.Safe task.Gives (task.run rounds) := by
  cases task with
  | evaluate e => exact Expr.safe_evaluate proper
  | execute s => exact Stmt.safe_execute proper

end Task

theorem Eval.Safe.keeps {part : Eval α} (safe : Safe allowed part)
    (done : part m = .ok a m') (plain : m.Plain) : m'.Plain := by
  have ends := safe m plain
  rw [done] at ends
  exact ends.2

theorem Turns.plain {test : Eval Bool} {body : Eval Value} (turns : Turns test body n m m')
    (tested : Eval.Safe (fun _ => True) test) (again : Eval.Safe Stmt.Gives body) (plain : m.Plain) :
    m'.Plain := by
  induction turns with
  | zero => exact plain
  | succ _ holds runs ih => exact again.keeps runs (tested.keeps holds (ih plain))

/-- A proper task on a plain machine only comes to proper tasks, on plain machines. -/
theorem Calls.plain (calls : Calls rounds task m part m') (proper : task.Proper) (plain : m.Plain) :
    part.Proper ∧ m'.Plain := by
  cases calls with
  | grouping | assign | expression | print | define => exact ⟨proper, plain⟩
  | unary => exact ⟨proper.2, plain⟩
  | left => exact ⟨proper.2.1, plain⟩
  | right evaluated => exact ⟨proper.2.2, (Expr.safe_evaluate proper.2.1).keeps evaluated plain⟩
  | block _ executed =>
    have each := Stmt.properAll_iff.mp proper
    refine ⟨each _ (by simp), ?_⟩
    refine (Stmt.safe_executeAll fun s member => ?_).keeps executed (Chain.plain_push plain)
    exact Stmt.safe_execute (each s (by simp [member]))
  | ifThen | ifElse => exact ⟨proper.1, plain⟩
  | thenOnly _ held => exact ⟨proper.2, (Expr.safe_holds proper.1).keeps held plain⟩
  | thenBranch _ held => exact ⟨proper.2.1, (Expr.safe_holds proper.1).keeps held plain⟩
  | elseBranch _ held => exact ⟨proper.2.2, (Expr.safe_holds proper.1).keeps held plain⟩
  | loop _ _ turns =>
    exact ⟨proper.1, turns.plain (Expr.safe_holds proper.1) (Stmt.safe_execute proper.2) plain⟩
  | body _ _ turns held =>
    have before := turns.plain (Expr.safe_holds proper.1) (Stmt.safe_execute proper.2) plain
    exact ⟨proper.2, (Expr.safe_holds proper.1).keeps held before⟩

/-- Safety holds at every point of the run, not only at its end. -/
theorem Visits.plain (visits : Visits rounds program m task m') (proper : ∀ s ∈ program, s.Proper)
    (plain : m.Plain) : task.Proper ∧ m'.Plain := by
  induction visits with
  | start same executed =>
    subst same
    refine ⟨proper _ (by simp), ?_⟩
    exact (safe_runProgram (fun s member => proper s (by simp [member])) rounds).keeps executed plain
  | call _ calls ih => exact calls.plain ih.1 ih.2

end LoxLang

import LoxLang.Proofs.Safety

/-! The levels that evaluation enters, against those that the parser counts. Both count groupings, unary
operators, assignments, blocks, branches and loops. The parser alone counts every expression and the
arguments of a call, evaluation alone counts a declaration, and so it needs one level more than the
parser at most. -/
namespace LoxLang

namespace Expr

/-- How many levels evaluation enters. The parts of a call are never evaluated. -/
def levels : Expr → Nat
  | missing | literal .. | var _ | call .. => 0
  | grouping inner => inner.levels + 1
  | unary _ right => right.levels + 1
  | binary left _ right => max left.levels right.levels
  | assign _ value => value.levels + 1

/-- Evaluation goes no deeper than the parser counted, and less deep at a call, which it does not enter. -/
theorem levels_le_nesting (e : Expr) : e.levels ≤ e.nesting := by
  induction e using Expr.inductionOn with
  | missing | literal | var | call => exact Nat.zero_le _
  | grouping inner ih => exact Nat.succ_le_succ ih
  | unary operator right ih => exact Nat.succ_le_succ ih
  | binary left operator right left_ih right_ih =>
    simp only [levels, nesting]
    omega
  | assign name value ih => exact Nat.succ_le_succ ih

end Expr

namespace Stmt

mutual

/-- How many levels running a statement enters, its own included. -/
def levels : Stmt → Nat
  | missing | declare _ | bad .. => 1
  | expression e | print e | define _ e => e.levels + 1
  | block _ body => levelsAll body + 1
  | ifThen condition thenBranch => max condition.levels thenBranch.levels + 1
  | ifElse condition thenBranch elseBranch =>
    max condition.levels (max thenBranch.levels elseBranch.levels) + 1
  | loop condition body => max condition.levels body.levels + 1

def levelsAll : List Stmt → Nat
  | [] => 0
  | s :: ss => max s.levels (levelsAll ss)

end

theorem levels_le_levelsAll {ss : List Stmt} (member : s ∈ ss) : s.levels ≤ levelsAll ss := by
  induction ss with
  | nil => contradiction
  | cons first ss ih =>
    rw [levelsAll]
    rcases List.mem_cons.mp member with rfl | later
    · exact Nat.le_max_left _ _
    · exact Nat.le_trans (ih later) (Nat.le_max_right _ _)

theorem levelsAll_le {ss : List Stmt} (each : ∀ s ∈ ss, s.levels ≤ s.nesting + 1) :
    levelsAll ss ≤ nestingAll ss + 1 := by
  induction ss with
  | nil => exact Nat.zero_le _
  | cons s ss ih =>
    obtain ⟨here, later⟩ := List.forall_mem_cons.mp each
    have others := ih later
    simp only [levelsAll, nestingAll]
    omega

theorem levels_le_nesting (s : Stmt) : s.levels ≤ s.nesting + 1 := by
  induction s using Stmt.inductionOn with
  | missing | declare | bad => exact Nat.le_refl _
  | expression e | print e =>
    have inside := e.levels_le_nesting
    simp only [levels, nesting]
    omega
  | define name e =>
    have inside := e.levels_le_nesting
    simp only [levels, nesting]
    omega
  | block brace body ih =>
    have inside := levelsAll_le ih
    simp only [levels, nesting]
    omega
  | ifThen condition thenBranch ih =>
    have tested := condition.levels_le_nesting
    simp only [levels, nesting]
    omega
  | ifElse condition thenBranch elseBranch then_ih else_ih =>
    have tested := condition.levels_le_nesting
    simp only [levels, nesting]
    omega
  | loop condition body ih =>
    have tested := condition.levels_le_nesting
    simp only [levels, nesting]
    omega

end Stmt

/-- The message tells the failure, also from one about a variable with any name. -/
theorem RuntimeCause.tooDeep_of_message {cause : RuntimeCause}
    (text : cause.message = "Maximum nesting depth exceeded.") : cause = .tooDeep := by
  cases cause with
  | tooDeep => rfl
  | undefinedVariable name =>
    -- The name can be anything, so the messages are told apart by their first letters.
    have first := message_undefinedVariable name
    rw [text] at first
    exact absurd first (by decide)
  | _ => exact absurd text (by decide)

def Stop.TooDeep : Stop → Prop
  | error e => e.cause = .tooDeep
  | fault _ | exhausted => False

structure Machine.At (depth limit : Nat) (m : Machine) : Prop where
  depth_eq : m.depth = depth
  limit_eq : m.limit = limit

namespace Eval

/-- The part leaves the machine as deep as it was, and so many levels are enough for it. -/
def Within (levels : Nat) (part : Eval α) : Prop :=
  ∀ depth limit, Meets (Machine.At depth limit) part (fun _ => Machine.At depth limit)
    (fun stop m => m.At depth limit ∧ (depth + levels ≤ limit → ¬ stop.TooDeep))

theorem within_pure (a : α) : Within levels (pure a : Eval α) :=
  fun _ _ => meets_pure fun _ here => here

theorem within_throw (shallow : ¬ stop.TooDeep) : Within levels (throw stop : Eval α) :=
  fun _ _ => meets_throw fun _ here => ⟨here, fun _ => shallow⟩

theorem within_fail (token : Token) (shallow : cause ≠ .tooDeep) :
    Within levels (fail token cause : Eval α) :=
  within_throw shallow

theorem Within.bind {first : Eval α} {second : α → Eval β} (within : Within levels first)
    (next : ∀ a, Within levels (second a)) : Within levels (first >>= second) :=
  fun depth limit => (within depth limit).bind fun a => next a depth limit

theorem Within.map {part : Eval α} (f : α → β) (within : Within levels part) :
    Within levels (f <$> part) :=
  fun depth limit => Meets.map (within depth limit)

theorem Within.mono {part : Eval α} (within : Within levels part) (more : levels ≤ others) :
    Within others part := by
  intro depth limit
  refine (within depth limit).mono (fun _ here => here) (fun _ _ done => done) ?_
  intro stop m stopped
  exact ⟨stopped.1, fun room => stopped.2 (by omega)⟩

/-- The level that is entered is left again, so the depth afterwards is the one before. -/
theorem within_nest {part : Eval α} (token : Token) (within : Within levels part) :
    Within (levels + 1) (nest token part) := by
  intro depth limit
  apply meets_nest
  · intro m here full
    refine ⟨here, fun room _ => full ?_⟩
    rw [Machine.Roomy, here.depth_eq, here.limit_eq]
    omega
  · refine (within (depth + 1) limit).mono ?_ ?_ ?_
    · rintro _ ⟨outer, here, _, rfl⟩
      exact ⟨congrArg (· + 1) here.depth_eq, here.limit_eq⟩
    · intro a m done
      exact ⟨congrArg (· - 1) done.depth_eq, done.limit_eq⟩
    · intro stop m stopped
      refine ⟨⟨congrArg (· - 1) stopped.1.depth_eq, stopped.1.limit_eq⟩, fun room => ?_⟩
      exact stopped.2 (by omega)

theorem within_inNewScope {part : Eval α} (within : Within levels part) :
    Within levels (inNewScope part) := by
  intro depth limit
  apply meets_inNewScope
  refine (within depth limit).mono ?_ (fun _ _ done => ⟨done.depth_eq, done.limit_eq⟩)
    (fun _ _ stopped => ⟨⟨stopped.1.depth_eq, stopped.1.limit_eq⟩, stopped.2⟩)
  rintro _ ⟨outer, here, rfl⟩
  exact ⟨here.depth_eq, here.limit_eq⟩

theorem undefined_shallow (name : Token) : ¬ (Stop.error (.undefined name)).TooDeep := by
  simp [Stop.TooDeep, RuntimeError.undefined]

theorem within_get (name : Token) : Within levels (get name) :=
  fun _ _ => meets_get (fun _ _ here _ => here) fun _ here _ => ⟨here, fun _ => undefined_shallow name⟩

theorem within_assign (name : Token) (value : Value) : Within levels (assign name value) :=
  fun _ _ => meets_assign (fun _ _ here _ => ⟨here.depth_eq, here.limit_eq⟩)
    fun _ here _ => ⟨here, fun _ => undefined_shallow name⟩

theorem within_define (name : String) (value : Value) : Within levels (define name value) :=
  fun _ _ _ here => ⟨here.depth_eq, here.limit_eq⟩

theorem within_print (value : Value) : Within levels (print value) :=
  fun _ _ => meets_print (fun _ _ here _ => ⟨here.depth_eq, here.limit_eq⟩)
    fun _ here _ => ⟨here, fun _ => id⟩

theorem within_ofOperator (operator : Token) (shallow : result ≠ .error .tooDeep) :
    Within levels (ofOperator operator result) := by
  cases result with
  | ok value => exact within_pure value
  | error cause => exact within_fail operator fun same => shallow (congrArg Except.error same)

theorem within_whileTrue {test : Eval Bool} {body : Eval Unit} (tested : Within levels test)
    (again : Within levels body) (rounds : Nat) : Within levels (whileTrue test body rounds) := by
  intro depth limit
  apply meets_whileTrue
  · refine (tested depth limit).mono (fun _ here => here) ?_ (fun _ _ stopped => stopped)
    intro b m done
    cases b <;> exact done
  · exact again depth limit
  · exact fun _ here => ⟨here, fun _ => id⟩

/-- What a part within its levels leaves is as deep as what it was given. -/
theorem Within.depth_eq {part : Eval α} (within : Within levels part) (done : part m = .ok a m') :
    m'.depth = m.depth :=
  ((within m.depth m.limit).of_ok done ⟨rfl, rfl⟩).depth_eq

end Eval

theorem applyUnary_shallow (operator : Token) (right : Value) :
    applyUnary operator right ≠ .error .tooDeep := by
  unfold applyUnary
  split <;> simp

theorem onNumbers_shallow (each : ∀ a b, f a b ≠ .error .tooDeep) (left right : Value) :
    onNumbers f left right ≠ .error .tooDeep := by
  unfold onNumbers
  split
  · exact each _ _
  · simp

theorem applyBinary_shallow (operator : Token) (left right : Value) :
    applyBinary operator left right ≠ .error .tooDeep := by
  unfold applyBinary
  split
  case h_1 | h_2 | h_11 => simp
  case h_3 =>
    unfold add
    split <;> simp
  case h_6 =>
    apply onNumbers_shallow
    intro a b
    unfold divide
    split <;> simp
  all_goals
    apply onNumbers_shallow
    simp

/-- As many levels as the expression has are enough on any machine, whatever its depth. -/
theorem Expr.within_evaluate (e : Expr) : Eval.Within e.levels e.evaluate := by
  induction e using Expr.inductionOn with
  | missing => exact Eval.within_throw id
  | literal value token => exact Eval.within_pure value
  | grouping inner ih => exact Eval.within_nest _ ih
  | unary operator right ih =>
    refine Eval.within_nest _ (ih.bind fun value => ?_)
    exact Eval.within_ofOperator _ (applyUnary_shallow operator value)
  | binary left operator right left_ih right_ih =>
    have first := left_ih.mono (Nat.le_max_left left.levels right.levels)
    have second := right_ih.mono (Nat.le_max_right left.levels right.levels)
    refine first.bind fun a => second.bind fun b => ?_
    exact Eval.within_ofOperator _ (applyBinary_shallow operator a b)
  | var name => exact Eval.within_get name
  | assign name value ih =>
    refine Eval.within_nest _ (ih.bind fun v => ?_)
    exact (Eval.within_assign name v).bind fun _ => Eval.within_pure v
  | call callee paren arguments => exact Eval.within_fail paren (by simp)

theorem Expr.within_holds (e : Expr) : Eval.Within e.levels e.holds :=
  e.within_evaluate.map _

namespace Stmt

theorem within_executeAll {ss : List Stmt} (each : ∀ s ∈ ss, Eval.Within s.levels (s.execute rounds)) :
    Eval.Within (levelsAll ss) (executeAll rounds ss) := by
  induction ss with
  | nil => exact Eval.within_pure ()
  | cons s ss ih =>
    obtain ⟨here, later⟩ := List.forall_mem_cons.mp each
    rw [executeAll, levelsAll]
    refine (here.mono (Nat.le_max_left _ _)).bind fun _ => ?_
    exact (ih later).mono (Nat.le_max_right _ _)

/-- A loop runs its body at the same depth in every round, so the rounds do not count. -/
theorem within_execute (rounds : Nat) (s : Stmt) : Eval.Within s.levels (s.execute rounds) := by
  induction s using Stmt.inductionOn with
  | missing =>
    rw [execute]
    exact Eval.within_nest _ (Eval.within_throw id)
  | expression e =>
    rw [execute]
    exact Eval.within_nest _ e.within_evaluate
  | print e =>
    rw [execute]
    refine Eval.within_nest _ (e.within_evaluate.bind fun value => ?_)
    exact (Eval.within_print value).bind fun _ => Eval.within_pure _
  | declare name =>
    rw [execute]
    exact Eval.within_nest _ ((Eval.within_define _ _).bind fun _ => Eval.within_pure _)
  | define name e =>
    rw [execute]
    refine Eval.within_nest _ (e.within_evaluate.bind fun value => ?_)
    exact (Eval.within_define _ value).bind fun _ => Eval.within_pure _
  | block brace body ih =>
    rw [execute]
    have inside := Eval.within_inNewScope (within_executeAll ih)
    exact Eval.within_nest _ (inside.bind fun _ => Eval.within_pure _)
  | ifThen condition thenBranch ih =>
    rw [execute]
    have tested := condition.within_holds.mono (Nat.le_max_left _ thenBranch.levels)
    refine Eval.within_nest _ (tested.bind fun holds => ?_)
    cases holds with
    | true => exact (ih.mono (Nat.le_max_right _ _)).bind fun _ => Eval.within_pure _
    | false => exact Eval.within_pure _
  | ifElse condition thenBranch elseBranch then_ih else_ih =>
    rw [execute, levels]
    have tested := condition.within_holds.mono
      (Nat.le_max_left _ (max thenBranch.levels elseBranch.levels))
    refine Eval.within_nest _ (tested.bind fun holds => ?_)
    cases holds with
    | true => exact (then_ih.mono (by omega)).bind fun _ => Eval.within_pure _
    | false => exact (else_ih.mono (by omega)).bind fun _ => Eval.within_pure _
  | loop condition body ih =>
    rw [execute]
    have tested := condition.within_holds.mono (Nat.le_max_left _ body.levels)
    have again := (ih.mono (Nat.le_max_right condition.levels _)).map fun _ => ()
    refine Eval.within_nest _ ?_
    exact (Eval.within_whileTrue tested again rounds).bind fun _ => Eval.within_pure _
  | bad start error =>
    rw [execute]
    exact Eval.within_nest _ (Eval.within_pure _)

end Stmt

theorem within_runProgram (rounds : Nat) (program : List Stmt) :
    Eval.Within (Stmt.levelsAll program) (runProgram rounds program) := by
  have from_value : ∀ value, Eval.Within (Stmt.levelsAll program)
      (program.foldlM (fun _ s => s.execute rounds) value) := by
    induction program with
    | nil => exact fun value => Eval.within_pure value
    | cons s program ih =>
      intro value
      rw [List.foldlM_cons, Stmt.levelsAll]
      refine ((s.within_execute rounds).mono (Nat.le_max_left _ _)).bind fun value => ?_
      exact (ih value).mono (Nat.le_max_right _ _)
  exact from_value .void

namespace Task

def levels : Task → Nat
  | evaluate e => e.levels
  | execute s => s.levels

end Task

theorem Turns.depth_eq (turns : Turns test body n m m') (tested : Eval.Within levels test)
    (again : Eval.Within others body) : m'.depth = m.depth := by
  induction turns with
  | zero => rfl
  | succ _ holds runs ih => rw [again.depth_eq runs, tested.depth_eq holds, ih]

/-- A part of a task needs no more levels than the task has left for it. -/
theorem Calls.levels_le (calls : Calls rounds task m part m') :
    m'.depth + part.levels ≤ m.depth + task.levels := by
  cases calls with
  | grouping | unary | assign | expression | print | define =>
    simp only [Task.levels, Expr.levels, Stmt.levels, Machine.deeper]
    omega
  | left =>
    simp only [Task.levels, Expr.levels]
    omega
  | right evaluated =>
    rw [(Expr.within_evaluate _).depth_eq evaluated]
    simp only [Task.levels, Expr.levels]
    omega
  | @block earlier _ _ s later _ _ executed =>
    have depth := (Stmt.within_executeAll fun s _ => s.within_execute rounds).depth_eq executed
    have inside : s.levels ≤ Stmt.levelsAll (earlier ++ s :: later) :=
      Stmt.levels_le_levelsAll (by simp)
    simp only [Machine.deeper, Machine.opened] at depth
    simp only [Task.levels, Stmt.levels]
    omega
  | ifThen | ifElse =>
    simp only [Task.levels, Stmt.levels, Machine.deeper]
    omega
  | thenOnly _ held | thenBranch _ held | elseBranch _ held =>
    have depth := (Expr.within_holds _).depth_eq held
    simp only [Machine.deeper] at depth
    simp only [Task.levels, Stmt.levels]
    omega
  | loop _ _ turns =>
    have depth := turns.depth_eq (Expr.within_holds _) (Stmt.within_execute rounds _)
    simp only [Machine.deeper] at depth
    simp only [Task.levels, Stmt.levels]
    omega
  | body _ _ turns held =>
    have before := turns.depth_eq (Expr.within_holds _) (Stmt.within_execute rounds _)
    have depth := (Expr.within_holds _).depth_eq held
    simp only [Machine.deeper] at before
    simp only [Task.levels, Stmt.levels]
    omega

/-- Wherever a run has come to, it goes no deeper than the levels of the program. -/
theorem Visits.levels_le (visits : Visits rounds program m task m') :
    m'.depth + task.levels ≤ m.depth + Stmt.levelsAll program := by
  induction visits with
  | @start earlier s later _ _ same executed =>
    have depth := (within_runProgram rounds earlier).depth_eq executed
    have inside : s.levels ≤ Stmt.levelsAll program := Stmt.levels_le_levelsAll (by simp [same])
    simp only [Task.levels]
    omega
  | call _ calls ih => exact Nat.le_trans calls.levels_le ih

/-- A run that failed has come back to the top as well. -/
theorem Machine.InSession.depth_eq {m : Machine} (session : m.InSession) : m.depth = 0 := by
  induction session with
  | fresh limit => rfl
  | settings limit output _ ih => exact ih
  | @run m limit rounds file bytes _ ih =>
    have within := within_runProgram rounds (parse limit file (Text.decodeUtf8 bytes)).program
      m.depth m.limit
    cases done : runProgram rounds (parse limit file (Text.decodeUtf8 bytes)).program m with
    | ok value m' => exact (within.of_ok done ⟨rfl, rfl⟩).depth_eq.trans ih
    | error stop m' => exact (within.of_error done ⟨rfl, rfl⟩).1.depth_eq.trans ih

/-- Whatever is parsed with a limit, complaints or not, nests within that limit, and running it goes at
most one level deeper than the parser counted, however often its loops turn. So in any session a machine
with one level more than the parser never says that it is too deep. -/
theorem session_nests_within {m : Machine} (session : m.InSession) (limit rounds : Nat) (file : String)
    (bytes : List UInt8) :
    let program := (parse limit file (Text.decodeUtf8 bytes)).program
    Stmt.nestingAll program ≤ limit ∧
    (∀ task m', Visits rounds program m task m' →
      m'.depth + task.levels ≤ Stmt.nestingAll program + 1) ∧
    (limit + 1 ≤ m.limit → ∀ e m', runProgram rounds program m = .error (.error e) m' →
      e.cause.message ≠ "Maximum nesting depth exceeded.") := by
  intro program
  have counted : Stmt.nestingAll program ≤ limit := nesting_parseTokens limit _
  have entered : Stmt.levelsAll program ≤ Stmt.nestingAll program + 1 :=
    Stmt.levelsAll_le fun s _ => s.levels_le_nesting
  have start := session.depth_eq
  refine ⟨counted, ?_, ?_⟩
  · intro task m' visits
    have deepest := visits.levels_le
    omega
  · intro room e m' stopped text
    have ends := (within_runProgram rounds program m.depth m.limit).of_error stopped ⟨rfl, rfl⟩
    exact ends.2 (by omega) (RuntimeCause.tooDeep_of_message text)

/-- After a run that was too deep, a declaration in a block, which needs the level more. -/
theorem session_nests_within_after_failure :
    let m := Machine.left (runProgram 9
      (parse 9 "" (Text.decodeUtf8 "\x7b -(1); \x7d".toUTF8.toList)).program { limit := 2 })
    let program := (parse 1 "" (Text.decodeUtf8 "\x7b var a; \x7d".toUTF8.toList)).program
    (1 + 1 ≤ m.limit) ∧
    Stmt.nestingAll program ≤ 1 ∧
    (∀ task m', Visits 9 program m task m' →
      m'.depth + task.levels ≤ Stmt.nestingAll program + 1) ∧
    ∀ e m', runProgram 9 program m = .error (.error e) m' →
      e.cause.message ≠ "Maximum nesting depth exceeded." := by
  intro m program
  have room : 1 + 1 ≤ m.limit := by decide +kernel
  obtain ⟨counted, deepest, never⟩ := session_nests_within
    (.run 9 9 "" "\x7b -(1); \x7d".toUTF8.toList (.fresh 2)) 1 9 ""
    "\x7b var a; \x7d".toUTF8.toList
  exact ⟨room, counted, deepest, never room⟩

/-- With no level more than the parser has, the declaration in the block is too deep. -/
example :
    (match runProgram 9 (parse 1 "" "\x7b var a; \x7d".toList).program { limit := 1 } with
      | .error (.error e) _ => decide (e.cause = .tooDeep)
      | _ => false) = true := by decide +kernel

end LoxLang

import LoxLang.Machine.Evaluate

/-! What a computation on the machine does, said by a condition on the machine before it, one on its
result and the machine after it, and one on the reason and the machine with which it stops early. Each
operation of the machine has its rule, and a loop has the rule of its invariant. -/
namespace LoxLang

namespace Machine

/-- One more level of nesting can be entered. -/
def Roomy (m : Machine) : Prop := m.depth + 1 ≤ m.limit

def deeper (m : Machine) : Machine := { m with depth := m.depth + 1 }

def shallower (m : Machine) : Machine := { m with depth := m.depth - 1 }

def opened (m : Machine) : Machine := { m with chain := m.chain.push }

def closed (m : Machine) : Machine := { m with chain := m.chain.pop }

end Machine

namespace Eval

/-- On every machine that `before` holds of, the part ends as `after` says or stops as `stops` says. -/
def Meets (before : Machine → Prop) (part : Eval α) (after : α → Machine → Prop)
    (stops : Stop → Machine → Prop) : Prop :=
  ∀ m, before m →
    match part m with
    | .ok a m => after a m
    | .error stop m => stops stop m

variable {before : Machine → Prop} {stops : Stop → Machine → Prop}

theorem meets_pure {a : α} (met : ∀ m, before m → after a m) :
    Meets before (pure a) after stops := met

theorem meets_throw (met : ∀ m, before m → stops stop m) :
    Meets before (throw stop : Eval α) after stops := met

/-- The rule of sequence. What is said of stopping has to hold wherever the run stops, in either part. -/
theorem Meets.bind {first : Eval α} {second : α → Eval β} {between : α → Machine → Prop}
    (meets : Meets before first between stops) (next : ∀ a, Meets (between a) (second a) after stops) :
    Meets before (first >>= second) after stops := by
  intro m start
  have met := meets m start
  change match EStateM.bind first second m with
    | .ok a m => after a m
    | .error stop m => stops stop m
  unfold EStateM.bind
  cases done : first m with
  | ok a m' =>
    rw [done] at met
    exact next a m' met
  | error stop m' =>
    rw [done] at met
    exact met

theorem Meets.map {part : Eval α} {f : α → β}
    (meets : Meets before part (fun a => after (f a)) stops) :
    Meets before (f <$> part) after stops := by
  intro m start
  have met := meets m start
  change match EStateM.map f part m with
    | .ok a m => after a m
    | .error stop m => stops stop m
  unfold EStateM.map
  cases done : part m <;> rwa [done] at met

/-- The rule of consequence, for both ways to end. -/
theorem Meets.mono {part : Eval α} (meets : Meets before part after stops)
    (start : ∀ m, earlier m → before m) (finish : ∀ a m, after a m → later a m)
    (halt : ∀ stop m, stops stop m → halts stop m) : Meets earlier part later halts := by
  intro m here
  have met := meets m (start m here)
  cases done : part m with
  | ok a m' =>
    rw [done] at met
    exact finish a m' met
  | error stop m' =>
    rw [done] at met
    exact halt stop m' met

theorem Meets.of_ok {part : Eval α} (meets : Meets before part after stops)
    (done : part m = .ok a m') (start : before m) : after a m' := by
  have met := meets m start
  rwa [done] at met

theorem Meets.of_error {part : Eval α} (meets : Meets before part after stops)
    (stopped : part m = .error stop m') (start : before m) : stops stop m' := by
  have met := meets m start
  rwa [stopped] at met

theorem bind_of_ok {first : Eval α} {second : α → Eval β} (done : first m = .ok a m') :
    (first >>= second) m = second a m' := by
  change EStateM.bind first second m = _
  rw [EStateM.bind, done]

theorem bind_of_error {first : Eval α} {second : α → Eval β}
    (stopped : first m = .error stop m') : (first >>= second) m = .error stop m' := by
  change EStateM.bind first second m = _
  rw [EStateM.bind, stopped]

theorem nest_of_ok {part : Eval α} (token : Token) (roomy : m.Roomy)
    (done : part m.deeper = .ok a m') : nest token part m = .ok a m'.shallower := by
  unfold Machine.deeper at done
  rw [nest, if_neg (Nat.not_lt_of_le roomy), done]
  rfl

theorem nest_of_error {part : Eval α} (token : Token) (roomy : m.Roomy)
    (stopped : part m.deeper = .error stop m') :
    nest token part m = .error stop m'.shallower := by
  unfold Machine.deeper at stopped
  rw [nest, if_neg (Nat.not_lt_of_le roomy), stopped]
  rfl

theorem inNewScope_of_ok {part : Eval α} (done : part m.opened = .ok a m') :
    inNewScope part m = .ok a m'.closed := by
  unfold Machine.opened at done
  rw [inNewScope, done]
  rfl

theorem inNewScope_of_error {part : Eval α} (stopped : part m.opened = .error stop m') :
    inNewScope part m = .error stop m'.closed := by
  unfold Machine.opened at stopped
  rw [inNewScope, stopped]
  rfl

/-- The part starts one level deeper and what it leaves is one level higher again, however it ends. Without room
it is not run at all. -/
theorem meets_nest {part : Eval α} (token : Token)
    (tooDeep : ∀ m, before m → ¬ m.Roomy → stops (.error { token, cause := .tooDeep }) m)
    (inside : Meets (fun m => ∃ outer, before outer ∧ outer.Roomy ∧ m = outer.deeper) part
      (fun a m => after a m.shallower) (fun stop m => stops stop m.shallower)) :
    Meets before (nest token part) after stops := by
  intro m start
  unfold nest
  by_cases deep : m.limit < m.depth + 1
  · simpa only [if_pos deep] using tooDeep m start (Nat.not_le_of_lt deep)
  · have met := inside m.deeper ⟨m, start, Nat.le_of_not_lt deep, rfl⟩
    simp only [if_neg deep]
    unfold Machine.deeper at met
    cases done : part { m with depth := m.depth + 1 } <;> rwa [done] at met

/-- The scope is closed on both ways out. -/
theorem meets_inNewScope {part : Eval α}
    (inside : Meets (fun m => ∃ outer, before outer ∧ m = outer.opened) part
      (fun a m => after a m.closed) (fun stop m => stops stop m.closed)) :
    Meets before (inNewScope part) after stops := by
  intro m start
  have met := inside m.opened ⟨m, start, rfl⟩
  unfold Machine.opened at met
  unfold inNewScope
  cases done : part { m with chain := m.chain.push } <;> rwa [done] at met

theorem meets_fail {token : Token} {cause : RuntimeCause}
    (met : ∀ m, before m → stops (.error { token, cause }) m) :
    Meets before (fail token cause : Eval α) after stops := met

/-- What begins by looking at the machine is run on the machine that it saw. -/
theorem read_bind (next : Machine → Eval α) (m : Machine) :
    (EStateM.get >>= next) m = next m m := rfl

theorem get_bound {name : Token} (lookup : m.chain.find? name.lexeme = some value) :
    get name m = .ok value m := by
  unfold get
  rw [read_bind, lookup]
  rfl

theorem get_unbound {name : Token} (lookup : m.chain.find? name.lexeme = none) :
    get name m = .error (.error (.undefined name)) m := by
  unfold get
  rw [read_bind, lookup]
  rfl

theorem meets_get {name : Token}
    (found : ∀ m value, before m → m.chain.find? name.lexeme = some value → after value m)
    (unbound : ∀ m, before m → m.chain.find? name.lexeme = none →
      stops (.error (.undefined name)) m) : Meets before (get name) after stops := by
  intro m start
  cases lookup : m.chain.find? name.lexeme with
  | some value =>
    rw [get_bound lookup]
    exact found m value start lookup
  | none =>
    rw [get_unbound lookup]
    exact unbound m start lookup

theorem assign_bound {name : Token} (assigned : m.chain.assign? name.lexeme value = some chain) :
    assign name value m = .ok () { m with chain } := by
  unfold assign
  rw [read_bind, assigned]
  rfl

theorem assign_unbound {name : Token} (assigned : m.chain.assign? name.lexeme value = none) :
    assign name value m = .error (.error (.undefined name)) m := by
  unfold assign
  rw [read_bind, assigned]
  rfl

theorem meets_assign {name : Token} {value : Value}
    (found : ∀ m chain, before m → m.chain.assign? name.lexeme value = some chain →
      after () { m with chain })
    (unbound : ∀ m, before m → m.chain.assign? name.lexeme value = none →
      stops (.error (.undefined name)) m) : Meets before (assign name value) after stops := by
  intro m start
  cases assigned : m.chain.assign? name.lexeme value with
  | some chain =>
    rw [assign_bound assigned]
    exact found m chain start assigned
  | none =>
    rw [assign_unbound assigned]
    exact unbound m start assigned

theorem print_shown {value : Value} (shown : value.text? = some text) :
    print value m = .ok () { m with output := m.output.push text } := by
  unfold print
  rw [shown]
  rfl

theorem print_blank {value : Value} (blank : value.text? = none) :
    print value m = .error (.fault .missingValue) m := by
  unfold print
  rw [blank]
  rfl

theorem meets_print {value : Value}
    (shown : ∀ m text, before m → value.text? = some text →
      after () { m with output := m.output.push text })
    (blank : ∀ m, before m → value.text? = none → stops (.fault .missingValue) m) :
    Meets before (print value) after stops := by
  intro m start
  cases text : value.text? with
  | some line =>
    rw [print_shown text]
    exact shown m line start text
  | none =>
    rw [print_blank text]
    exact blank m start text

/-- `turning` holds before every test, `inside` before every run of the body. -/
theorem meets_whileTrue {test : Eval Bool} {body : Eval Unit} {turning inside : Machine → Prop}
    (tested : Meets turning test (fun b m => if b then inside m else after () m) stops)
    (again : Meets inside body (fun _ => turning) stops)
    (exhausted : ∀ m, turning m → stops .exhausted m) (rounds : Nat) :
    Meets turning (whileTrue test body rounds) after stops := by
  induction rounds with
  | zero => exact meets_throw exhausted
  | succ rounds ih =>
    refine tested.bind fun b => ?_
    cases b with
    | false => exact meets_pure fun m done => done
    | true => exact again.bind fun _ => ih

end Eval

section Programs

variable {rounds : Nat} {earlier : List Stmt} {m m' : Machine}

theorem runProgram_append (rounds : Nat) (earlier later : List Stmt) : runProgram rounds (earlier ++ later) =
    runProgram rounds earlier >>= later.foldlM (fun _ s => s.execute rounds) := List.foldlM_append ..

/-- Statements that come to their end leave the machine to those after them. -/
theorem runProgram_after_ok (done : runProgram rounds earlier m = .ok value m') (s : Stmt) (later : List Stmt) :
    runProgram rounds (earlier ++ s :: later) m =
      (s.execute rounds >>= later.foldlM fun _ s => s.execute rounds) m' := by
  rw [runProgram_append, Eval.bind_of_ok done, List.foldlM_cons]

/-- Nothing after a statement that stops has any effect. -/
theorem runProgram_after_error (stopped : runProgram rounds earlier m = .error stop m') (later : List Stmt) :
    runProgram rounds (earlier ++ later) m = .error stop m' := by
  rw [runProgram_append, Eval.bind_of_error stopped]

/-- The last of some statements gives the value. -/
theorem runProgram_snoc (done : runProgram rounds earlier m = .ok value m') (s : Stmt) :
    runProgram rounds (earlier ++ [s]) m = s.execute rounds m' := by
  rw [runProgram_after_ok done]
  change EStateM.bind (s.execute rounds) pure m' = _
  unfold EStateM.bind
  cases s.execute rounds m' <;> rfl

/-- Statements come to their end where all but the last one do and then the last one. -/
theorem runProgram_ends (done : runProgram rounds (earlier ++ [s]) m = .ok value m') :
    ∃ given between, runProgram rounds earlier m = .ok given between ∧ s.execute rounds between = .ok value m' := by
  cases ran : runProgram rounds earlier m with
  | ok given between => exact ⟨given, between, rfl, (runProgram_snoc ran s).symm.trans done⟩
  | error stop between =>
    rw [runProgram_after_error ran] at done
    contradiction

/-- A run that stops does so in one of the statements, and those before it come to their end. -/
theorem runProgram_stops (stopped : runProgram rounds program m = .error stop m') :
    ∃ earlier s later value between, program = earlier ++ s :: later ∧
      runProgram rounds earlier m = .ok value between ∧ s.execute rounds between = .error stop m' := by
  have from_value : ∀ (program : List Stmt) (value : Value) (m : Machine),
      program.foldlM (fun _ s => s.execute rounds) value m = .error stop m' →
      ∃ earlier s later last between, program = earlier ++ s :: later ∧
        earlier.foldlM (fun _ s => s.execute rounds) value m = .ok last between ∧
        s.execute rounds between = .error stop m' := by
    intro program
    induction program with
    | nil =>
      intro value m ended
      contradiction
    | cons s program ih =>
      intro value m stopped
      rw [List.foldlM_cons] at stopped
      cases here : s.execute rounds m with
      | error other after =>
        rw [Eval.bind_of_error here] at stopped
        exact ⟨[], s, program, value, m, rfl, rfl, here.trans stopped⟩
      | ok given after =>
        rw [Eval.bind_of_ok here] at stopped
        obtain ⟨earlier, failed, later, last, between, rfl, done, stops⟩ := ih given after stopped
        refine ⟨s :: earlier, failed, later, last, between, rfl, ?_, stops⟩
        rw [List.foldlM_cons, Eval.bind_of_ok here, done]
  exact from_value program .void m stopped

end Programs
end LoxLang

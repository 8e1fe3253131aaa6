import LoxLang.Proofs.Machine.Output
import LoxLang.Proofs.Restoration

/-! How deeply a machine may nest shows only when a run gets there. Two runs of one program, which differ in that
limit alone, do the same up to the level that one of them may not enter: there it stops, and the other one
goes on after the same output. -/
namespace LoxLang

namespace Machine

def limited (limit : Nat) (m : Machine) : Machine := { m with limit }

def resultLimited (limit : Nat) : EStateM.Result Stop Machine α → EStateM.Result Stop Machine α
  | .ok a m => .ok a (m.limited limit)
  | .error stop m => .error stop (m.limited limit)

end Machine

namespace Eval

theorem left_nest {part : Eval α} (token : Token) (roomy : m.Roomy) :
    Machine.left (nest token part m) = (Machine.left (part m.deeper)).shallower := by
  cases done : part m.deeper with
  | ok a m' =>
    rw [nest_of_ok token roomy done]
    rfl
  | error stop m' =>
    rw [nest_of_error token roomy done]
    rfl

theorem left_inNewScope (part : Eval α) (m : Machine) :
    Machine.left (inNewScope part m) = (Machine.left (part m.opened)).closed := by
  cases done : part m.opened with
  | ok a m' =>
    rw [inNewScope_of_ok done]
    rfl
  | error stop m' =>
    rw [inNewScope_of_error done]
    rfl

/-- What comes later in a run only adds to what its first part has left. -/
theorem left_bind_extends (first : Eval α) {second : α → Eval β} (later : ∀ a, (second a).Extends)
    (m : Machine) : (Machine.left (first m)).Extends (Machine.left ((first >>= second) m)) := by
  cases done : first m with
  | ok a m' =>
    rw [bind_of_ok done]
    exact later a m'
  | error stop m' =>
    rw [bind_of_error done]
    exact m'.extends_refl

/-- Both limits give the same result, or the lower one stops the part as too deep, after output that the part
also has under the higher one. -/
def Alike (low high : Nat) (part : Eval α) (m : Machine) : Prop :=
  (∃ result, part (m.limited low) = Machine.resultLimited low result ∧
    part (m.limited high) = Machine.resultLimited high result) ∨
  ∃ token m', part (m.limited low) = .error (.error { token, cause := .tooDeep }) m' ∧
    m'.output.toList <+: (Machine.left (part (m.limited high))).output.toList

/-- On every machine the part does alike under both limits. It also only adds to the output, which is what
keeps the output of a run that goes on after the other one has stopped. -/
structure Transparent (low high : Nat) (part : Eval α) : Prop where
  grows : part.Extends
  alike : ∀ m, part.Alike low high m

variable {low high : Nat}

/-- A part that does not look at the limit does the same under any two. -/
theorem transparent_of_blind {part : Eval α} (grows : part.Extends)
    (blind : ∀ limit m, part (m.limited limit) = Machine.resultLimited limit (part m)) :
    Transparent low high part :=
  ⟨grows, fun m => .inl ⟨part m, blind low m, blind high m⟩⟩

theorem transparent_get (name : Token) : Transparent low high (get name) := by
  refine transparent_of_blind (extends_get name) fun limit m => ?_
  cases lookup : m.chain.find? name.lexeme with
  | some value =>
    have further : (m.limited limit).chain.find? name.lexeme = some value := lookup
    rw [get_bound lookup, get_bound further]
    rfl
  | none =>
    have further : (m.limited limit).chain.find? name.lexeme = none := lookup
    rw [get_unbound lookup, get_unbound further]
    rfl

theorem transparent_assign (name : Token) (value : Value) : Transparent low high (assign name value) := by
  refine transparent_of_blind (extends_assign name value) fun limit m => ?_
  cases assigned : m.chain.assign? name.lexeme value with
  | some chain =>
    have further : (m.limited limit).chain.assign? name.lexeme value = some chain := assigned
    rw [assign_bound assigned, assign_bound further]
    rfl
  | none =>
    have further : (m.limited limit).chain.assign? name.lexeme value = none := assigned
    rw [assign_unbound assigned, assign_unbound further]
    rfl

theorem transparent_print (value : Value) : Transparent low high (print value) := by
  refine transparent_of_blind (extends_print value) fun limit m => ?_
  cases shown : value.text? with
  | some text =>
    rw [print_shown shown, print_shown shown]
    rfl
  | none =>
    rw [print_blank shown, print_blank shown]
    rfl

/-- Where the first part is too deep under the lower limit only, the second one just adds output under the
higher one. -/
theorem Transparent.bind {first : Eval α} {second : α → Eval β} (earlier : Transparent low high first)
    (later : ∀ a, Transparent low high (second a)) : Transparent low high (first >>= second) := by
  refine ⟨earlier.grows.bind fun a => (later a).grows, fun m => ?_⟩
  rcases earlier.alike m with ⟨result, below, above⟩ | ⟨token, m', deep, printed⟩
  · cases result with
    | ok a m' =>
      rw [Alike, bind_of_ok below, bind_of_ok above]
      exact (later a).alike m'
    | error stop m' => exact .inl ⟨.error stop m', bind_of_error below, bind_of_error above⟩
  · have goes_on := left_bind_extends first (fun a => (later a).grows) (m.limited high)
    exact .inr ⟨token, m', bind_of_error deep, printed.trans goes_on.output⟩

/-- The one place where the limit is looked at. -/
theorem transparent_nest {part : Eval α} (higher : low ≤ high) (token : Token)
    (inside : Transparent low high part) : Transparent low high (nest token part) := by
  have grows := extends_nest token inside.grows
  refine ⟨grows, fun m => ?_⟩
  by_cases roomy : (m.limited low).Roomy
  · have further : (m.limited high).Roomy := Nat.le_trans roomy higher
    rcases inside.alike m.deeper with ⟨result, below, above⟩ | ⟨token', m', deep, printed⟩
    · left
      cases result with
      | ok a m' =>
        exact ⟨.ok a m'.shallower, nest_of_ok token roomy below, nest_of_ok token further above⟩
      | error stop m' =>
        exact ⟨.error stop m'.shallower, nest_of_error token roomy below, nest_of_error token further above⟩
    · refine .inr ⟨token', m'.shallower, nest_of_error token roomy deep, ?_⟩
      rw [left_nest token further]
      exact printed
  · have deep : (m.limited low).limit < (m.limited low).depth + 1 := Nat.lt_of_not_le roomy
    refine .inr ⟨token, m.limited low, ?_, (grows (m.limited high)).output⟩
    rw [nest, if_pos deep]

theorem transparent_inNewScope {part : Eval α} (inside : Transparent low high part) :
    Transparent low high (inNewScope part) := by
  refine ⟨extends_inNewScope inside.grows, fun m => ?_⟩
  rcases inside.alike m.opened with ⟨result, below, above⟩ | ⟨token, m', deep, printed⟩
  · left
    cases result with
    | ok a m' =>
      have first : inNewScope part (m.limited low) = .ok a (m'.limited low).closed := inNewScope_of_ok below
      have second : inNewScope part (m.limited high) = .ok a (m'.limited high).closed := inNewScope_of_ok above
      exact ⟨.ok a m'.closed, first, second⟩
    | error stop m' =>
      have first : inNewScope part (m.limited low) = .error stop (m'.limited low).closed := inNewScope_of_error below
      have second : inNewScope part (m.limited high) = .error stop (m'.limited high).closed := inNewScope_of_error above
      exact ⟨.error stop m'.closed, first, second⟩
  · refine .inr ⟨token, m'.closed, inNewScope_of_error deep, ?_⟩
    rw [left_inNewScope]
    exact printed

/-- Nesting is the only operation that looks at the limit. -/
theorem closed_transparent (higher : low ≤ high) : Closed fun _ part => Transparent low high part where
  pures a := transparent_of_blind (extends_pure a) fun _ _ => rfl
  throws stop := transparent_of_blind (extends_throw stop) fun _ _ => rfl
  binds := Transparent.bind
  nests := transparent_nest higher
  scopes := transparent_inNewScope
  gets := transparent_get
  assigns := transparent_assign
  defines name value := transparent_of_blind (extends_define name value) fun _ _ => rfl
  prints := transparent_print

end Eval

variable {low high : Nat} {start : Machine}

/-- The program comes to an end on the machine, with this result. -/
def Ends (program : List Stmt) (m : Machine) (result : EStateM.Result Stop Machine Value) : Prop :=
  (∀ m', result ≠ .error .exhausted m') ∧ ∃ rounds, runProgram rounds program m = result

/-- From some number of rounds on, a run that ends has its result. -/
theorem Ends.eventually (ends : Ends program m result) :
    ∃ rounds, ∀ more, rounds ≤ more → runProgram more program m = result := by
  obtain ⟨finished, rounds, rfl⟩ := ends
  exact ⟨rounds, fun more enough => runProgram_more enough program m finished⟩

/-- What stops early under the lower limit has printed the beginning of what is printed under the higher one. -/
theorem Ends.output_begins (higher : low ≤ high) (stopped : Ends program (start.limited low) (.error stop m))
    (ends : Ends program (start.limited high) result) :
    m.output.toList <+: (Machine.left result).output.toList := by
  -- The two runs may need different numbers of rounds; the larger one is enough for both.
  obtain ⟨few, below⟩ := stopped.eventually
  obtain ⟨many, above⟩ := ends.eventually
  have run := ((Eval.closed_transparent higher).runProgram (max few many) program).alike start
  rw [Eval.Alike, below _ (Nat.le_max_left few many), above _ (Nat.le_max_right few many)] at run
  rcases run with ⟨common, first, second⟩ | ⟨token, m', same, printed⟩
  · rw [second]
    cases common with
    | ok value m' => contradiction
    | error stop' m' =>
      obtain ⟨-, rfl⟩ := EStateM.Result.error.inj first
      exact List.prefix_refl _
  · obtain ⟨-, rfl⟩ := EStateM.Result.error.inj same
    exact printed

/-- What ends under the lower limit, and not because it is too deep, ends so under the higher one. -/
theorem Ends.raise (higher : low ≤ high) (ends : Ends program (start.limited low) result)
    (shallow : ∀ token m, result ≠ .error (.error { token, cause := .tooDeep }) m) :
    Ends program (start.limited high) (Machine.resultLimited high result) := by
  obtain ⟨finished, rounds, run⟩ := ends
  rcases ((Eval.closed_transparent higher).runProgram rounds program).alike start with
    ⟨common, below, above⟩ | ⟨token, m', deep, _⟩
  · obtain rfl := run.symm.trans below
    cases common with
    | ok value m' => exact ⟨nofun, rounds, above⟩
    | error stop m' =>
      refine ⟨fun _ same => ?_, rounds, above⟩
      obtain ⟨rfl, -⟩ := EStateM.Result.error.inj same
      exact finished _ rfl
  · exact absurd (run.symm.trans deep) (shallow token m')

/-- On any machine, with any two limits: a program that ends under the lower one with a value, or stops for
any other reason than its depth, does so under the higher one too, and leaves the same machine up to the
limit. Where it stops under the lower limit because of its depth, it has printed the beginning of whatever it
prints under the higher one, if it ends there. -/
theorem depth_limit_transparent (program : List Stmt) (start : Machine) (higher : low ≤ high) :
    (∀ value m, Ends program (start.limited low) (.ok value m) →
      Ends program (start.limited high) (.ok value (m.limited high))) ∧
    (∀ stop m, Ends program (start.limited low) (.error stop m) →
      (∀ e, stop = .error e → e.cause.message ≠ "Maximum nesting depth exceeded.") →
      Ends program (start.limited high) (.error stop (m.limited high))) ∧
    ∀ e m result, Ends program (start.limited low) (.error (.error e) m) →
      e.cause.message = "Maximum nesting depth exceeded." →
      Ends program (start.limited high) result →
      m.output.toList <+: (Machine.left result).output.toList := by
  refine ⟨?_, ?_, ?_⟩
  · intro value m ends
    exact ends.raise higher fun _ _ same => by cases same
  · intro stop m ends other
    refine ends.raise higher fun token _ same => ?_
    obtain ⟨rfl, -⟩ := EStateM.Result.error.inj same
    exact other _ rfl rfl
  · intro e m result stopped _ ends
    exact stopped.output_begins higher ends

/-- A grouping under an operator in a print statement needs three levels. With two of them the program stops
there, after a line; with three it prints another line and ends, and with five as well. A call after a grouping
fails with three levels and with five. -/
theorem depth_limit_transparent_at_grouping :
    let bang : Token := { kind := .bang, lexeme := "!" }
    let paren : Token := { kind := .rightParen, lexeme := ")" }
    let inverted : Stmt := .print (.unary bang (.grouping (.literal .nil {})))
    let program : List Stmt := [.print (.literal .nil {}), inverted]
    let failing : List Stmt := [inverted, .expression (.call (.literal .nil {}) paren [])]
    let start : Machine := { chain := { globals := [("b", .nil)] } }
    let ended : Machine := { start with limit := 3, output := #["nil", "true"] }
    let failed : Machine := { start with limit := 3, output := #["true"] }
    let stopped : Machine := { start with limit := 2, output := #["nil"] }
    let failure : RuntimeError := { token := paren, cause := .notCallable }
    let deep : RuntimeError := { token := {}, cause := .tooDeep }
    (Ends program (start.limited 3) (.ok .void ended) ∧
      Ends program (start.limited 5) (.ok .void (ended.limited 5))) ∧
    (Ends failing (start.limited 3) (.error (.error failure) failed) ∧
      Ends failing (start.limited 5) (.error (.error failure) (failed.limited 5))) ∧
    Ends program (start.limited 2) (.error (.error deep) stopped) ∧
      stopped.output.toList <+: ended.output.toList := by
  intro bang paren inverted program failing start ended failed stopped failure deep
  have ends : Ends program (start.limited 3) (.ok .void ended) := ⟨nofun, 1, rfl⟩
  have fails : Ends failing (start.limited 3) (.error (.error failure) failed) := ⟨nofun, 1, rfl⟩
  have stops : Ends program (start.limited 2) (.error (.error deep) stopped) := ⟨nofun, 1, rfl⟩
  have other : ∀ e, Stop.error failure = .error e →
      e.cause.message ≠ "Maximum nesting depth exceeded." := by
    intro e same
    obtain rfl := Stop.error.inj same
    decide
  have ends_too := (depth_limit_transparent program start (by decide : 3 ≤ 5)).1 .void ended ends
  have fails_too :=
    (depth_limit_transparent failing start (by decide : 3 ≤ 5)).2.1 (.error failure) failed fails other
  have printed := (depth_limit_transparent program start (by decide : 2 ≤ 3)).2.2 deep stopped _ stops rfl ends
  exact ⟨⟨ends, ends_too⟩, ⟨fails, fails_too⟩, stops, printed⟩

end LoxLang

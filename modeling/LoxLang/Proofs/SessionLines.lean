import LoxLang.Proofs.Blame
import LoxLang.Proofs.Restoration
import LoxLang.Proofs.Script

/-! The lines of a session. A line that is complained about does nothing, so it can be left out; any other is run,
and only the globals that it leaves make a difference to the lines after it. What it shows is what it prints,
and then the value of its last statement, if that is an expression statement and the line came to its end. -/
namespace LoxLang

/-- A line of a session, the machines before and after it, and what it shows. -/
structure Exchange where
  line : List UInt8
  before : Machine
  after : Machine
  outcome : Outcome

namespace Settings

variable (s : Settings)

def reads (line : List UInt8) : Parsed := parse s.parseLimit sessionFile (Text.decodeUtf8 line)

/-- Nothing is complained about in the line. -/
def accepts (line : List UInt8) : Bool := (s.reads line).diagnostics.isEmpty

end Settings

def exchange (s : Settings) (coloured : Bool) (rounds : Nat) (m : Machine) (line : List UInt8) : Exchange :=
  let (after, outcome) := runLine s coloured rounds m (Text.decodeUtf8 line)
  { line, before := m, after, outcome }

/-- The lines one after the other, each on the machine that those before it leave. -/
def exchanges (s : Settings) (coloured : Bool) (rounds : Nat) : Machine → List (List UInt8) → List Exchange
  | _, [] => []
  | m, line :: lines =>
    let x := exchange s coloured rounds m line
    x :: exchanges s coloured rounds x.after lines

def afterLines (s : Settings) (coloured : Bool) (rounds : Nat) (m : Machine) (lines : List (List UInt8)) : Machine :=
  lines.foldl (fun m line => (exchange s coloured rounds m line).after) m

@[simp] theorem exchange_line (s : Settings) (coloured : Bool) (rounds : Nat) (m : Machine) (line : List UInt8) :
    (exchange s coloured rounds m line).line = line := rfl

@[simp] theorem exchange_before (s : Settings) (coloured : Bool) (rounds : Nat) (m : Machine) (line : List UInt8) :
    (exchange s coloured rounds m line).before = m := rfl

def Machine.exhausted : EStateM.Result Stop Machine α → Bool
  | .error .exhausted _ => true
  | _ => false

theorem Machine.exhausted_eq_false {result : EStateM.Result Stop Machine α} (ends : exhausted result = false) :
    ∀ m, result ≠ .error .exhausted m := by
  rintro m rfl
  contradiction

/-- The line does not run out of rounds if it is run at all. -/
def Exchange.Ends (s : Settings) (rounds : Nat) (x : Exchange) : Prop :=
  s.accepts x.line = true →
    Machine.exhausted (runProgram rounds (s.reads x.line).program x.before.withoutOutput) = false

instance (s : Settings) (rounds : Nat) (x : Exchange) : Decidable (x.Ends s rounds) :=
  inferInstanceAs (Decidable (_ → _))

/-- The line was not run: it shows nothing on the output, and the machine is what it was. -/
structure Exchange.Skipped (x : Exchange) : Prop where
  unchanged : x.after = x.before
  silent : x.outcome.out = ""

/-- The line was run up to the error. The statements before the one that failed came to their end. What was
printed until then is shown, and the globals stay as they were at the error. -/
structure Exchange.Breaks (rounds : Nat) (program : List Stmt) (e : RuntimeError) (x : Exchange) : Prop where
  run : runProgram rounds program x.before.withoutOutput = .error (.error e) x.after
  stops : ∃ earlier failed later value between, program = earlier ++ failed :: later ∧
    runProgram rounds earlier x.before.withoutOutput = .ok value between ∧
    failed.execute rounds between = .error (.error e) x.after ∧ between.Extends x.after
  out : x.outcome.out = Text.ofLines x.after.output.toList
  idle : x.after.Idle

/-- The line was run to its end. What it printed is shown, and then, if its last statement is an expression
statement, the value of that. -/
structure Exchange.Answers (rounds : Nat) (program : List Stmt) (value : Value) (x : Exchange) : Prop where
  run : runProgram rounds program x.before.withoutOutput = .ok value x.after
  echoes : ∀ earlier e, program = earlier ++ [.expression e] → ∃ given between text,
    runProgram rounds earlier x.before.withoutOutput = .ok given between ∧
    (Stmt.expression e).execute rounds between = .ok value x.after ∧
    value.text? = some text ∧ x.outcome.out = Text.ofLines (x.after.output.toList ++ [text])
  silent : (∀ earlier e, program ≠ earlier ++ [.expression e]) →
    x.outcome.out = Text.ofLines x.after.output.toList
  err : x.outcome.err = ""
  idle : x.after.Idle

theorem ofLines_snoc (lines : List String) (line : String) :
    Text.ofLines (lines ++ [line]) = Text.ofLines lines ++ (line ++ "\n") := by
  simp [Text.ofLines, String.join_append]

/-- What is made of the run of a line. -/
def shownRun (coloured : Bool) : EStateM.Result Stop Machine Value → Machine × Outcome
  | .ok v m => (m, { out := m.printed ++ echo v })
  | .error stop m => (m, { out := m.printed, err := stop.report coloured })

section Lines

variable {s : Settings} {coloured : Bool} {rounds : Nat} {m : Machine} {line : List UInt8}
  (quiet : s.showTokens = false)
include quiet

theorem runLine_accepted (accepted : s.accepts line = true) :
    runLine s coloured rounds m (Text.decodeUtf8 line) =
      shownRun coloured (runProgram rounds (s.reads line).program m.withoutOutput) := by
  have clean : (parse s.parseLimit sessionFile (Text.decodeUtf8 line)).diagnostics = [] :=
    List.isEmpty_iff.mp accepted
  simp only [runLine, Settings.reads, clean, quiet]
  cases runProgram rounds (parse s.parseLimit sessionFile (Text.decodeUtf8 line)).program m.withoutOutput with
  | ok v m' => simp [shownRun]
  | error stop m' => simp [shownRun]

theorem runLine_rejected (rejected : s.accepts line = false) :
    runLine s coloured rounds m (Text.decodeUtf8 line) =
      (m, { err := reportAll coloured (s.reads line).diagnostics }) := by
  obtain ⟨d, ds, found⟩ := List.exists_cons_of_ne_nil (List.isEmpty_eq_false_iff.mp rejected)
  have same : (parse s.parseLimit sessionFile (Text.decodeUtf8 line)).diagnostics = d :: ds := found
  simp [runLine, found, same, quiet]

end Lines

namespace Eval

/-- The part gives no value where it comes to its end. -/
def Silent (part : Eval Value) : Prop := ∀ m value m', part m = .ok value m' → value = .void

theorem silent_void : Silent (pure .void) := by
  rintro m value m' ⟨⟩
  rfl

theorem silent_throw (stop : Stop) : Silent (throw stop) := by
  rintro m value m' ⟨⟩

theorem silent_bind {first : Eval α} {second : α → Eval Value} (later : ∀ a, Silent (second a)) :
    Silent (first >>= second) := by
  intro m value m' done
  cases here : first m with
  | ok a between =>
    rw [bind_of_ok here] at done
    exact later a between value m' done
  | error stop between =>
    rw [bind_of_error here] at done
    contradiction

theorem silent_nest {part : Eval Value} (token : Token) (inside : Silent part) : Silent (nest token part) := by
  intro m value m' done
  by_cases roomy : m.Roomy
  · cases here : part m.deeper with
    | ok a within =>
      rw [nest_of_ok token roomy here] at done
      obtain ⟨rfl, _⟩ := EStateM.Result.ok.inj done
      exact inside _ _ _ here
    | error stop within =>
      rw [nest_of_error token roomy here] at done
      contradiction
  · rw [nest, if_pos (Nat.lt_of_not_le roomy)] at done
    contradiction

end Eval

/-- A statement other than an expression statement gives no value. -/
theorem Stmt.silent_execute (rounds : Nat) {s : Stmt} (other : ∀ e, s ≠ .expression e) :
    Eval.Silent (s.execute rounds) := by
  cases s with
  | expression e => exact absurd rfl (other e)
  | missing =>
    rw [execute]
    exact Eval.silent_nest _ (Eval.silent_throw _)
  | bad start error =>
    rw [execute]
    exact Eval.silent_nest _ Eval.silent_void
  | declare | block | loop =>
    rw [execute]
    exact Eval.silent_nest _ (Eval.silent_bind fun _ => Eval.silent_void)
  | print | define =>
    rw [execute]
    exact Eval.silent_nest _ (Eval.silent_bind fun _ => Eval.silent_bind fun _ => Eval.silent_void)
  | ifThen =>
    rw [execute]
    refine Eval.silent_nest _ (Eval.silent_bind fun holds => ?_)
    cases holds with
    | true => exact Eval.silent_bind fun _ => Eval.silent_void
    | false => exact Eval.silent_void
  | ifElse =>
    rw [execute]
    refine Eval.silent_nest _ (Eval.silent_bind fun holds => ?_)
    cases holds <;> exact Eval.silent_bind fun _ => Eval.silent_void

/-- Statements that do not end in an expression statement give no value. -/
theorem runProgram_silent (done : runProgram rounds program m = .ok value m')
    (other : ∀ earlier e, program ≠ earlier ++ [.expression e]) : value = .void := by
  obtain rfl | ⟨earlier, s, rfl⟩ := List.eq_nil_or_concat program
  · exact (EStateM.Result.ok.inj done).1.symm
  · rw [List.concat_eq_append] at done other
    obtain ⟨_, between, _, last⟩ := runProgram_ends done
    refine Stmt.silent_execute rounds ?_ between value m' last
    rintro e rfl
    exact other earlier e rfl

/-- An expression statement of a source gives a plain value. -/
theorem runProgram_expression (proper : ∀ s ∈ earlier ++ [.expression e], s.Proper) (plain : m.Plain)
    (done : runProgram rounds (earlier ++ [.expression e]) m = .ok value m') : value.Plain := by
  obtain ⟨given, between, before, last⟩ := runProgram_ends done
  have inside : between.Plain :=
    (safe_runProgram (fun s member => proper s (List.mem_append_left _ member)) rounds).keeps before plain
  have whole : e.Proper := proper (.expression e) (by simp)
  rw [Stmt.execute] at last
  have ends := Eval.safe_nest (Stmt.expression e).token (Expr.safe_evaluate whole) between inside
  rw [last] at ends
  exact ends.1

theorem Value.Plain.echo {value : Value} (plain : value.Plain) :
    ∃ text, value.text? = some text ∧ LoxLang.echo value = text ++ "\n" := by
  cases value with
  | callable | void | missing => exact plain.elim
  | nil | bool | num | str => exact ⟨_, rfl, rfl⟩

theorem Machine.InSession.idle {m : Machine} (session : m.InSession) : m.Idle := by
  induction session with
  | fresh limit => exact ⟨rfl, rfl⟩
  | settings limit output _ ih => exact ⟨ih.locals, ih.depth⟩
  | run limit rounds file bytes _ ih => exact ih.run rounds _

theorem Machine.InSession.withoutOutput {m : Machine} (session : m.InSession) : m.withoutOutput.InSession :=
  .settings m.limit #[] session

/-- Between the lines of a session only the globals and the limit can tell two machines apart. -/
theorem withoutOutput_eq {m other : Machine} (session : m.InSession) (beside : other.InSession)
    (limit : m.limit = other.limit) (globals : m.chain.globals = other.chain.globals) :
    m.withoutOutput = other.withoutOutput := by
  obtain ⟨locals, depth⟩ := session.idle
  obtain ⟨other_locals, other_depth⟩ := beside.idle
  obtain ⟨⟨_, _⟩, _, _, _⟩ := m
  obtain ⟨⟨_, _⟩, _, _, _⟩ := other
  simp_all [Machine.withoutOutput]

section Exchanges

variable {s : Settings} {coloured : Bool} {rounds : Nat} {m : Machine} {lines : List (List UInt8)}

theorem exchange_breaks {x : Exchange} (session : x.before.InSession)
    (run : runProgram rounds (s.reads x.line).program x.before.withoutOutput = .error (.error e) x.after)
    (out : x.outcome.out = x.after.printed) : x.Breaks rounds (s.reads x.line).program e := by
  obtain ⟨earlier, failed, later, value, between, split, done, stops⟩ := runProgram_stops run
  have extended := Eval.closed_extends.execute rounds failed between
  rw [stops] at extended
  have idle := session.withoutOutput.idle.run rounds (s.reads x.line).program
  rw [run] at idle
  refine ⟨run, ⟨earlier, failed, later, value, between, split, done, stops, extended⟩, ?_, idle⟩
  exact out.trans (printed_eq x.after)

theorem exchange_answers {x : Exchange} (session : x.before.InSession)
    (run : runProgram rounds (s.reads x.line).program x.before.withoutOutput = .ok value x.after)
    (outcome : x.outcome = { out := x.after.printed ++ echo value }) :
    x.Answers rounds (s.reads x.line).program value := by
  have out : x.outcome.out = Text.ofLines x.after.output.toList ++ echo value := by rw [outcome, ← printed_eq]
  have idle := session.withoutOutput.idle.run rounds (s.reads x.line).program
  rw [run] at idle
  refine ⟨run, ?_, ?_, by rw [outcome], idle⟩
  · intro earlier e split
    have proper : ∀ s ∈ earlier ++ [.expression e], s.Proper := split ▸ parse_proper
    rw [split] at run
    have plain := runProgram_expression proper session.withoutOutput.plain run
    obtain ⟨given, between, before, last⟩ := runProgram_ends run
    obtain ⟨text, shown, echoed⟩ := plain.echo
    refine ⟨given, between, text, before, last, shown, ?_⟩
    rw [out, echoed, ofLines_snoc]
  · intro other
    obtain rfl := runProgram_silent run other
    exact out.trans (String.append_empty)

variable (quiet : s.showTokens = false)
include quiet

theorem exchange_session (session : m.InSession) (line : List UInt8) :
    (exchange s coloured rounds m line).after.InSession := by
  cases accepted : s.accepts line with
  | false =>
    rw [exchange, runLine_rejected quiet accepted]
    exact session
  | true =>
    rw [exchange, runLine_accepted quiet accepted]
    have left := Machine.InSession.run s.parseLimit rounds sessionFile line session.withoutOutput
    change (Machine.left (runProgram rounds (s.reads line).program m.withoutOutput)).InSession at left
    cases ran : runProgram rounds (s.reads line).program m.withoutOutput with
    | ok value after | error stop after =>
      rw [ran] at left
      exact left

/-- Every line is run on a machine of the session. -/
theorem mem_exchanges (session : m.InSession) {x : Exchange} (member : x ∈ exchanges s coloured rounds m lines) :
    x.before.InSession ∧ x = exchange s coloured rounds x.before x.line := by
  induction lines generalizing m with
  | nil => contradiction
  | cons line lines ih =>
    rcases List.mem_cons.mp member with rfl | later
    · exact ⟨session, rfl⟩
    · exact ih (exchange_session quiet session line) later

/-- A line that is complained about leaves the session as it is. -/
theorem exchange_rejected (rejected : s.accepts line = false) (m : Machine) :
    (exchange s coloured rounds m line).after = m ∧ (exchange s coloured rounds m line).outcome =
      { err := reportAll coloured (s.reads line).diagnostics } := by
  rw [exchange, runLine_rejected quiet rejected]
  exact ⟨rfl, rfl⟩

/-- The lines that are complained about can be left out. -/
theorem exchanges_accepted : (exchanges s coloured rounds m lines).filter (fun x => s.accepts x.line) =
    exchanges s coloured rounds m (lines.filter s.accepts) := by
  induction lines generalizing m with
  | nil => rfl
  | cons line lines ih =>
    cases accepted : s.accepts line with
    | true =>
      rw [exchanges, List.filter_cons_of_pos (by simp [accepted]), List.filter_cons_of_pos accepted, exchanges, ih]
    | false =>
      rw [exchanges, List.filter_cons_of_neg (by simp [accepted]), List.filter_cons_of_neg (by simp [accepted]), ih,
        (exchange_rejected quiet accepted m).1]

/-- A line that is refused leaves nothing behind. -/
theorem afterLines_accepted :
    afterLines s coloured rounds m lines = afterLines s coloured rounds m (lines.filter s.accepts) := by
  unfold afterLines
  induction lines generalizing m with
  | nil => rfl
  | cons line lines ih =>
    rw [List.foldl_cons, ih]
    cases accepted : s.accepts line with
    | true => rw [List.filter_cons_of_pos accepted, List.foldl_cons]
    | false => rw [List.filter_cons_of_neg (by simp [accepted]), (exchange_rejected quiet accepted m).1]

/-- What was printed before makes no difference to what the lines show. -/
theorem exchanges_outcomes {other : Machine} (same : m.withoutOutput = other.withoutOutput) :
    (exchanges s coloured rounds m lines).map Exchange.outcome =
      (exchanges s coloured rounds other lines).map Exchange.outcome := by
  induction lines generalizing m other with
  | nil => rfl
  | cons line lines ih =>
    rw [exchanges, exchanges, List.map_cons, List.map_cons]
    cases accepted : s.accepts line with
    | true => rw [exchange, exchange, runLine_accepted quiet accepted, runLine_accepted quiet accepted, same]
    | false =>
      rw [(exchange_rejected quiet accepted m).1, (exchange_rejected quiet accepted m).2,
        (exchange_rejected quiet accepted other).1, (exchange_rejected quiet accepted other).2, ih same]

theorem exchanges_more (enough : rounds ≤ more)
    (ends : ∀ x ∈ exchanges s coloured rounds m lines, x.Ends s rounds) :
    exchanges s coloured more m lines = exchanges s coloured rounds m lines := by
  induction lines generalizing m with
  | nil => rfl
  | cons line lines ih =>
    rw [exchanges] at ends
    obtain ⟨here, later⟩ := List.forall_mem_cons.mp ends
    have same : exchange s coloured more m line = exchange s coloured rounds m line := by
      unfold exchange
      cases accepted : s.accepts line with
      | true =>
        have further : runProgram more (s.reads line).program m.withoutOutput =
            runProgram rounds (s.reads line).program m.withoutOutput :=
          runProgram_more enough _ _ (Machine.exhausted_eq_false (here accepted))
        rw [runLine_accepted quiet accepted, runLine_accepted quiet accepted, further]
      | false => rw [runLine_rejected quiet accepted, runLine_rejected quiet accepted]
    rw [exchanges, exchanges, same, ih later]

/-- A line that is run to an end breaks off with an error or answers. -/
theorem exchange_accepted {x : Exchange} (session : x.before.InSession)
    (made : x = exchange s coloured rounds x.before x.line) (accepted : s.accepts x.line = true)
    (ends : x.Ends s rounds) : (∃ e, x.Breaks rounds (s.reads x.line).program e) ∨
      ∃ value, x.Answers rounds (s.reads x.line).program value := by
  rw [exchange, runLine_accepted quiet accepted] at made
  have halts := Machine.exhausted_eq_false (ends accepted)
  cases run : runProgram rounds (s.reads x.line).program x.before.withoutOutput with
  | ok value after =>
    rw [run] at made
    obtain rfl : x.after = after := congrArg Exchange.after made
    exact .inr ⟨value, exchange_answers session run (congrArg Exchange.outcome made)⟩
  | error stop after =>
    rw [run] at made
    obtain rfl : x.after = after := congrArg Exchange.after made
    obtain ⟨e, rfl⟩ := stops_with_error session.withoutOutput run (by rintro rfl; exact halts _ run)
    exact .inl ⟨e, exchange_breaks session run (congrArg (fun x => x.outcome.out) made)⟩

end Exchanges

/-- The lines of a session, if those that are run come to an end. A line that is complained about shows nothing
on the output and changes nothing, so the session goes on as if it were not there. A line that fails shows
what it had printed and leaves the globals as they were then. A line that comes to its end shows what it printed
and its value exactly if its last statement is an expression statement. All that a line can tell from the
lines before it are the globals. -/
theorem session_lines_independent {m : Machine} (session : m.InSession) (s : Settings)
    (quiet : s.showTokens = false) (coloured : Bool) (rounds : Nat) (lines : List (List UInt8))
    (ends : ∀ x ∈ exchanges s coloured rounds m lines, x.Ends s rounds) :
    (∀ x ∈ exchanges s coloured rounds m lines,
      (s.accepts x.line = false → x.Skipped) ∧
      (s.accepts x.line = true → (∃ e, x.Breaks rounds (s.reads x.line).program e) ∨
        ∃ value, x.Answers rounds (s.reads x.line).program value)) ∧
    (exchanges s coloured rounds m lines).filter (fun x => s.accepts x.line) =
      exchanges s coloured rounds m (lines.filter s.accepts) ∧
    afterLines s coloured rounds m lines = afterLines s coloured rounds m (lines.filter s.accepts) ∧
    (∀ other : Machine, other.InSession → m.limit = other.limit → m.chain.globals = other.chain.globals →
      (exchanges s coloured rounds m lines).map Exchange.outcome =
        (exchanges s coloured rounds other lines).map Exchange.outcome) ∧
    ∀ more, rounds ≤ more → exchanges s coloured more m lines = exchanges s coloured rounds m lines := by
  refine ⟨fun x member => ?_, exchanges_accepted quiet, afterLines_accepted quiet, ?_, ?_⟩
  · obtain ⟨before, made⟩ := mem_exchanges quiet session member
    refine ⟨fun rejected => ?_, fun accepted => ?_⟩
    · obtain ⟨unchanged, shown⟩ := exchange_rejected quiet rejected x.before
      rw [← made] at unchanged shown
      exact ⟨unchanged, by rw [shown]⟩
    · exact exchange_accepted quiet before made accepted (ends x member)
  · intro other beside limit globals
    exact exchanges_outcomes quiet (withoutOutput_eq session beside limit globals)
  · exact fun more enough => exchanges_more quiet enough ends

/-- After a declaration, a line that is complained about is left out, one that fails keeps the assignment that it
has made, and the last one shows it. -/
theorem session_lines_independent_after_failure :
    let s : Settings := {}
    let lines := ["var a = \"x\";", "print a; a + ;", "\x7b a = \"y\"; \x7d print a; -a;", "a;"].map
      (·.toUTF8.toList)
    (exchanges s false 9 s.machine lines).map (·.outcome.out) = ["", "", "y\n", "y\n"] ∧
    (exchanges s false 9 s.machine lines).map (s.accepts ·.line) = [true, false, true, true] ∧
    (∀ x ∈ exchanges s false 9 s.machine lines,
      (s.accepts x.line = false → x.Skipped) ∧
      (s.accepts x.line = true → (∃ e, x.Breaks 9 (s.reads x.line).program e) ∨
        ∃ value, x.Answers 9 (s.reads x.line).program value)) ∧
    exchanges s false loopRounds s.machine lines = exchanges s false 9 s.machine lines := by
  intro s lines
  have ends : ∀ x ∈ exchanges s false 9 s.machine lines, x.Ends s 9 := by decide +kernel
  obtain ⟨each, _, _, _, further⟩ :=
    session_lines_independent (.fresh s.evalLimit) s rfl false 9 lines ends
  exact ⟨by decide +kernel, by decide +kernel, each, further loopRounds (by decide)⟩

end LoxLang

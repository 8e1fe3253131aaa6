import LoxLang.Command.Script
import LoxLang.Proofs.Machine.Output
import LoxLang.Proofs.Safety
import LoxLang.Text.Lines

/-! Scripts fail cleanly. A source that is complained about does nothing but show its complaints. Any other
is run, and what it shows is what it prints, and after that at most the one error that it stops with. The
exit status tells these apart. -/
namespace LoxLang

/-- How a script comes to its end: the machine that it leaves, what it shows on the output and among the
errors, and its exit status. -/
structure Finish where
  machine : Machine
  out : String
  err : String
  status : Int

/-- A script, run without colours, and what is made of its failure. -/
def finishScript (s : Settings) (rounds : Nat) (m : Machine) (file : String) (source : List Char) : Finish :=
  let (machine, outcome) := runScript s false rounds m file source
  let (status, said) := exitStatus outcome.failure
  { machine, out := outcome.out, err := outcome.err ++ said, status }

/-- The text shows the diagnostics, one a line. -/
def Shows (ds : List Diagnostic) (text : String) : Prop :=
  ∃ texts, ds.map Diagnostic.text? = texts.map some ∧ text = Text.ofLines texts

/-- The text is what was printed between the two machines. -/
def Prints (before after : Machine) (text : String) : Prop :=
  ∃ lines, after.output.toList = before.output.toList ++ lines ∧ text = Text.ofLines lines

/-- The script was not run: nothing is shown but the complaints of the scanner and then those of the
parser, and nothing else has happened. -/
structure Refused (parsed : Parsed) (m : Machine) (finish : Finish) : Prop where
  machine : finish.machine = m
  out : finish.out = ""
  err : Shows (parsed.lexical.map LexError.diagnostic ++ parsed.syntactic.map SyntaxError.diagnostic) finish.err
  reported : report? false (Diagnostic.list parsed.diagnostics).trace = some finish.err
  syntactic : (Diagnostic.list parsed.diagnostics).trace.phase = .syntactic ↔ parsed.syntactic ≠ []
  lexical : parsed.syntactic = [] → (Diagnostic.list parsed.diagnostics).trace.phase = .lexical

/-- The script was run to its end: what it printed is shown, and nothing else. -/
structure Succeeded (before after : Machine) (finish : Finish) : Prop where
  machine : finish.machine.after before.output = after
  out : Prints before after finish.out
  err : finish.err = ""

/-- The script was run up to the error: what it had printed is shown, and the error. -/
structure Failed (before after : Machine) (e : RuntimeError) (finish : Finish) : Prop where
  machine : finish.machine.after before.output = after
  out : Prints before after finish.out
  err : Shows [e.diagnostic] finish.err
  reported : report? false e.diagnostic.trace = some finish.err
  phase : e.diagnostic.trace.phase = .runtime

theorem told_texts {ds : List Diagnostic} (told : ∀ d ∈ ds, ∃ text, d.text? = some text) :
    ∃ texts, Diagnostic.texts? ds = some texts ∧ ds.map Diagnostic.text? = texts.map some := by
  induction ds with
  | nil => exact ⟨[], rfl, rfl⟩
  | cons d ds ih =>
    obtain ⟨⟨text, here⟩, others⟩ := List.forall_mem_cons.mp told
    obtain ⟨texts, all, listed⟩ := ih others
    refine ⟨text :: texts, ?_, ?_⟩
    · rw [Diagnostic.texts?, here, all]
    · rw [List.map_cons, List.map_cons, here, listed]

/-- What is reported shows the diagnostics. -/
theorem reported_shows (told : ∀ d ∈ ds, ∃ text, d.text? = some text) :
    Shows ds (reportAll false ds) ∧
      ∀ d : Diagnostic, d.shown = ds → report? false d = some (reportAll false ds) := by
  obtain ⟨texts, all, listed⟩ := told_texts told
  have lines : ∀ d : Diagnostic, d.shown = ds → report? false d = some (Text.ofLines texts) := by
    rintro d rfl
    rw [report?, all]
    rfl
  have whole : reportAll false ds = Text.ofLines texts := by
    rw [reportAll, lines (.list ds) rfl]
    rfl
  rw [whole]
  exact ⟨⟨texts, listed, rfl⟩, lines⟩

theorem SyntaxError.told (e : SyntaxError) : ∃ text, e.diagnostic.text? = some text := by
  cases e <;> simp [diagnostic, Diagnostic.text?]

namespace Diagnostic

theorem worstPhase_all {ds : List Diagnostic} {p : Phase} (each : ∀ d ∈ ds, d.phase = p)
    (nonempty : ds ≠ []) : worstPhase ds = p := by
  induction ds with
  | nil => contradiction
  | cons d ds ih =>
    obtain ⟨here, others⟩ := List.forall_mem_cons.mp each
    rw [worstPhase_cons, here]
    cases ds with
    | nil => cases p <;> rfl
    | cons e ds =>
      rw [ih others (List.cons_ne_nil e ds)]
      cases p <;> rfl

end Diagnostic

namespace Parsed

variable (parsed : Parsed)

theorem told : ∀ d ∈ parsed.diagnostics, ∃ text, d.text? = some text := by
  intro d member
  rcases List.mem_append.mp member with lexical | syntactic
  · obtain ⟨e, _, rfl⟩ := List.mem_map.mp lexical
    exact ⟨_, rfl⟩
  · obtain ⟨e, _, rfl⟩ := List.mem_map.mp syntactic
    exact e.told

theorem phase_lexical (none : parsed.syntactic = []) (complaints : parsed.diagnostics ≠ []) :
    Diagnostic.worstPhase parsed.diagnostics = .lexical := by
  refine Diagnostic.worstPhase_all (fun d member => ?_) complaints
  rw [diagnostics, none, List.map_nil, List.append_nil] at member
  obtain ⟨e, _, rfl⟩ := List.mem_map.mp member
  exact e.phase_diagnostic

/-- One syntactic complaint is enough, as it is worse than any lexical one. -/
theorem phase_syntactic (found : parsed.syntactic ≠ []) :
    Diagnostic.worstPhase parsed.diagnostics = .syntactic := by
  have later : Diagnostic.worstPhase (parsed.syntactic.map SyntaxError.diagnostic) = .syntactic := by
    refine Diagnostic.worstPhase_all (fun d member => ?_) (by simpa using found)
    obtain ⟨e, _, rfl⟩ := List.mem_map.mp member
    exact e.phase_diagnostic
  rw [diagnostics, Diagnostic.worstPhase_append, later]
  by_cases earlier : parsed.lexical = []
  · rw [earlier]
    rfl
  · rw [Diagnostic.worstPhase_all (p := .lexical)]
    · rfl
    · intro d member
      obtain ⟨e, _, rfl⟩ := List.mem_map.mp member
      exact e.phase_diagnostic
    · simpa using earlier

end Parsed

def finishRun : EStateM.Result Stop Machine Value → Finish
  | .ok _ m => { machine := m, out := m.printed, err := "", status := 0 }
  | .error stop m =>
    { machine := m, out := m.printed, err := stop.report false, status := (exitStatus (some stop.failure)).1 }

section Scripts

variable {s : Settings} {rounds : Nat} {m : Machine} {file : String} {source : List Char}

theorem finishScript_clean (clean : (parse s.parseLimit file source).diagnostics = []) :
    finishScript s rounds m file source =
      finishRun (runProgram rounds (parse s.parseLimit file source).program m.withoutOutput) := by
  rw [finishScript, runScript, Parsed.run, clean]
  cases runProgram rounds (parse s.parseLimit file source).program m.withoutOutput with
  | ok v m' => rfl
  | error stop m' => cases stop <;> simp [finishRun, Stop.failure, exitStatus]

theorem finishScript_complaints (complaints : (parse s.parseLimit file source).diagnostics ≠ []) :
    finishScript s rounds m file source =
      { machine := m, out := "", status := exitDataError
        err := reportAll false (parse s.parseLimit file source).diagnostics } := by
  obtain ⟨d, ds, found⟩ := List.exists_cons_of_ne_nil complaints
  rw [finishScript, runScript, Parsed.run, found]
  simp [exitStatus]

theorem refused (complaints : (parse s.parseLimit file source).diagnostics ≠ []) :
    Refused (parse s.parseLimit file source) m (finishScript s rounds m file source) := by
  rw [finishScript_complaints complaints]
  generalize parse s.parseLimit file source = parsed at complaints
  obtain ⟨shows, reported⟩ := reported_shows parsed.told
  have worst : (Diagnostic.list parsed.diagnostics).trace.phase = Diagnostic.worstPhase parsed.diagnostics := by
    rw [Diagnostic.phase_trace, Diagnostic.phase_list]
  constructor
  · rfl
  · rfl
  · exact shows
  · exact reported _ rfl
  · rw [worst]
    constructor
    · intro phase none
      have lexical := parsed.phase_lexical none complaints
      exact absurd (phase.symm.trans lexical) (by decide)
    · exact parsed.phase_syntactic
  · intro none
    exact worst.trans (parsed.phase_lexical none complaints)

theorem printed_eq (m : Machine) : m.printed = Text.ofLines m.output.toList := by
  simp only [Machine.printed, Text.ofLines, String.join, ← Array.foldl_toList, List.foldl_map, String.append_assoc]

theorem prints_after (before after : Machine) : Prints before (after.after before.output) after.printed :=
  ⟨after.output.toList, by simp [Machine.after], printed_eq after⟩

theorem succeeded (value : Value) (before after : Machine) :
    Succeeded before (after.after before.output) (finishRun (.ok value after)) :=
  ⟨rfl, prints_after before after, rfl⟩

theorem failed (e : RuntimeError) (before after : Machine) :
    Failed before (after.after before.output) e (finishRun (.error (.error e) after)) := by
  have told : ∀ d ∈ [e.diagnostic], ∃ text, d.text? = some text :=
    List.forall_mem_singleton.mpr ⟨_, rfl⟩
  obtain ⟨shows, reported⟩ := reported_shows told
  refine ⟨rfl, prints_after before after, shows, reported _ rfl, ?_⟩
  rw [Diagnostic.phase_trace, e.phase_diagnostic]

/-- The status tells whether the script was refused, whatever it would have done. -/
theorem finishScript_status :
    (finishScript s rounds m file source).status = 65 ↔ (parse s.parseLimit file source).diagnostics ≠ [] := by
  by_cases clean : (parse s.parseLimit file source).diagnostics = []
  · rw [finishScript_clean clean]
    refine iff_of_false ?_ (not_not_intro clean)
    cases runProgram rounds (parse s.parseLimit file source).program m.withoutOutput with
    | ok v after => simp [finishRun]
    | error stop after => cases stop <;> simp [finishRun, Stop.failure, exitStatus, exitSoftware, exitFault]
  · rw [finishScript_complaints clean]
    exact iff_of_true rfl clean

/-- A run of trees without holes that does not run out of rounds gives a value or stops with a runtime error,
with or without the earlier output. -/
theorem run_ends {program : List Stmt} (proper : ∀ s ∈ program, s.Proper) (plain : m.Plain)
    (ends : ∀ m', runProgram rounds program m ≠ .error .exhausted m') :
    (∃ v after, runProgram rounds program m.withoutOutput = .ok v after ∧
      runProgram rounds program m = .ok v (after.after m.output)) ∨
    ∃ e after, runProgram rounds program m.withoutOutput = .error (.error e) after ∧
      runProgram rounds program m = .error (.error e) (after.after m.output) := by
  have safe := safe_runProgram proper rounds m plain
  have same := runProgram_after rounds program m
  cases done : runProgram rounds program m.withoutOutput with
  | ok v after =>
    rw [done] at same
    exact .inl ⟨v, after, rfl, same⟩
  | error stop after =>
    rw [done] at same
    rw [same] at safe
    cases stop with
    | error e => exact .inr ⟨e, after, rfl, same⟩
    -- Only a tree with a hole meets a fault.
    | fault f => exact safe.1.elim
    | exhausted => exact absurd same (ends _)

theorem finishScript_more (clean : (parse s.parseLimit file source).diagnostics = []) (enough : rounds ≤ more)
    (ends : ∀ m', runProgram rounds (parse s.parseLimit file source).program m ≠ .error .exhausted m') :
    finishScript s more m file source = finishScript s rounds m file source := by
  rw [finishScript_clean clean, finishScript_clean clean, runProgram_more enough]
  intro m' out
  refine ends (m'.after m.output) ?_
  rw [runProgram_after, out]
  rfl

end Scripts

/-- A script is refused with status 65 exactly if there are complaints about it. Otherwise, if its run comes
to an end, however many rounds that takes, its status is 70 exactly if it stops with a runtime error, and
else 0. -/
theorem scripts_fail_cleanly {m : Machine} (session : m.InSession) (s : Settings) (rounds : Nat) (file : String)
    (bytes : List UInt8) :
    let parsed := parse s.parseLimit file (Text.decodeUtf8 bytes)
    let run := runProgram rounds parsed.program m
    let finish := finishScript s rounds m file (Text.decodeUtf8 bytes)
    (finish.status = 65 ↔ parsed.diagnostics ≠ []) ∧
    (finish.status = 65 → Refused parsed m finish) ∧
    (parsed.diagnostics = [] → (∀ m', run ≠ .error .exhausted m') →
      (finish.status = 70 ↔ ∃ e m', run = .error (.error e) m') ∧
      (∀ e m', run = .error (.error e) m' → Failed m m' e finish) ∧
      (finish.status ≠ 70 → finish.status = 0 ∧ ∃ v m', run = .ok v m' ∧ Succeeded m m' finish) ∧
      ∀ more, rounds ≤ more → finishScript s more m file (Text.decodeUtf8 bytes) = finish) := by
  intro parsed run finish
  refine ⟨finishScript_status, fun refusal => refused (finishScript_status.mp refusal), fun clean ends => ?_⟩
  have further : ∀ more, rounds ≤ more → finishScript s more m file (Text.decodeUtf8 bytes) = finish :=
    fun more enough => finishScript_more clean enough ends
  have shown : finish = finishRun (runProgram rounds parsed.program m.withoutOutput) := finishScript_clean clean
  rcases run_ends parse_proper session.plain ends with ⟨v, after, done, same⟩ | ⟨e, after, done, same⟩
  · rw [done] at shown
    have other : ¬ ∃ e m', run = .error (.error e) m' := by
      rintro ⟨e, m', stopped⟩
      exact absurd (same.symm.trans stopped) (by simp)
    refine ⟨iff_of_false ?_ other, fun e m' stopped => absurd ⟨e, m', stopped⟩ other, fun _ => ?_, further⟩
    · rw [shown]
      simp [finishRun]
    · rw [shown]
      exact ⟨rfl, v, _, same, succeeded v m after⟩
  · rw [done] at shown
    refine ⟨iff_of_true ?_ ⟨e, _, same⟩, fun e' m' stopped => ?_, fun other => absurd ?_ other, further⟩
    · rw [shown]
      rfl
    · obtain ⟨⟨rfl⟩, rfl⟩ : Stop.error e = .error e' ∧ after.after m.output = m' := by
        simpa using same.symm.trans stopped
      rw [shown]
      exact failed e m after
    · rw [shown]
      rfl

/-- A script that prints and then stops inside a loop, on a machine with a variable and earlier output. -/
theorem scripts_fail_cleanly_inside_loop :
    let m := Machine.left (runProgram 9
      (parse 9 "" (Text.decodeUtf8 "var a = \"x\"; print a;".toUTF8.toList)).program { limit := 7 })
    let bytes := "while (a) \x7b print a; -a; \x7d".toUTF8.toList
    let program := (parse 512 "f" (Text.decodeUtf8 bytes)).program
    m.InSession ∧ (finishScript {} 9 m "f" (Text.decodeUtf8 bytes)).status = 70 ∧
      (∃ e m', runProgram 9 program m = .error (.error e) m' ∧
        Failed m m' e (finishScript {} 9 m "f" (Text.decodeUtf8 bytes))) ∧
      finishScript {} loopRounds m "f" (Text.decodeUtf8 bytes) =
        finishScript {} 9 m "f" (Text.decodeUtf8 bytes) := by
  intro m bytes program
  have session : m.InSession := .run 9 9 "" "var a = \"x\"; print a;".toUTF8.toList (.fresh 7)
  have clean : (parse 512 "f" (Text.decodeUtf8 bytes)).diagnostics = [] :=
    List.isEmpty_iff.mp (by decide +kernel)
  have stops : (match runProgram 9 program m with
      | .error (.error _) _ => true
      | _ => false) = true := by decide +kernel
  obtain ⟨e, m', stopped⟩ : ∃ e m', runProgram 9 program m = .error (.error e) m' := by
    split at stops
    case h_1 e m' stopped => exact ⟨e, m', stopped⟩
    case h_2 => contradiction
  have ends : ∀ m', runProgram 9 program m ≠ .error .exhausted m' := by
    intro other out
    exact absurd (stopped.symm.trans out) (by simp)
  obtain ⟨_, _, runs⟩ := scripts_fail_cleanly session {} 9 "f" bytes
  obtain ⟨status, fails, _, further⟩ := runs clean ends
  exact ⟨session, status.mpr ⟨e, m', stopped⟩, ⟨e, m', stopped, fails e m' stopped⟩,
    further loopRounds (by decide)⟩

end LoxLang

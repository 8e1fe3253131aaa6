import LoxLang.Proofs.Machine.Safety
import LoxLang.Proofs.Parser.Program
import LoxLang.Proofs.Scanner.Tokens
import LoxLang.Text.Utf8

/-! From bytes to values. The scanner gives tokens with plain literals only, so the parser, complaints or
not, gives proper trees only, and these can be printed and run safely on any machine that has run
nothing else before. -/
namespace LoxLang

theorem Piece.token_plain {piece : Piece} (made : piece.token? start = some t) : t.literal.Plain := by
  unfold token? at made
  obtain ⟨⟨kind, literal⟩, meaning, rfl⟩ := Option.map_eq_some_iff.mp made
  cases piece with
  | symbol | word | numeral | string =>
    obtain ⟨_, rfl⟩ := Prod.mk.inj (Option.some.inj meaning)
    trivial
  | blank | comment | stray | openString => cases meaning

namespace Scanner

theorem collect_plain {list : List Piece} (member : t ∈ (collect reason start list).1) :
    t.literal.Plain := by
  induction list generalizing start with
  | nil =>
    obtain rfl : t = endToken start := by simpa [collect] using member
    trivial
  | cons piece rest ih =>
    obtain closed | ⟨body, rfl⟩ := closed_or_open piece
    · rw [collect_cons reason start rest closed] at member
      rcases List.mem_append.mp member with made | later
      · exact Piece.token_plain (Option.mem_toList.mp made)
      · exact ih later
    · rw [collect_openString] at member
      obtain rfl : t = endToken _ := List.mem_singleton.mp member
      trivial

end Scanner

theorem scan_plain (member : t ∈ (scan file source).1) : t.literal.Plain :=
  Scanner.collect_plain member

theorem Token.constant_plain {t : Token} (plain : t.literal.Plain)
    (constant : t.constant? = some value) : value.Plain := by
  unfold constant? at constant
  split at constant
  case h_6 => contradiction
  all_goals
    obtain rfl := Option.some.inj constant
    trivial

theorem Expr.Canonical.proper {e : Expr} (canonical : e.Canonical)
    (plain : ∀ t, Leaf.kept t ∈ e.yield → t.literal.Plain) : e.Proper := by
  induction e using Expr.inductionOn with
  | missing => exact canonical.elim
  | literal value token => exact Token.constant_plain (plain token (by simp [yield])) canonical
  | grouping inner ih => exact ih canonical fun t kept => plain t (by simp [yield, kept])
  | unary operator right ih =>
    exact ⟨canonical.1, ih canonical.2.2 fun t kept => plain t (by simp [yield, kept])⟩
  | binary left operator right left_ih right_ih =>
    obtain ⟨infixed, _, _, left_canonical, right_canonical⟩ := canonical
    exact ⟨infixed, left_ih left_canonical fun t kept => plain t (by simp [yield, kept]),
      right_ih right_canonical fun t kept => plain t (by simp [yield, kept])⟩
  | var name => trivial
  | assign name value ih => exact ih canonical.2 fun t kept => plain t (by simp [yield, kept])
  | call callee paren arguments callee_ih arguments_ih =>
    obtain ⟨_, _, _, callee_canonical, arguments_canonical⟩ := canonical
    refine ⟨callee_ih callee_canonical fun t kept => plain t (by simp [yield, kept]), ?_⟩
    rw [properAll_iff]
    intro e member
    refine arguments_ih e member (canonicalAll_iff.mp arguments_canonical e member) fun t kept => ?_
    exact plain t (by simp [yield, mem_yieldArguments member kept])

theorem Stmt.Canonical.proper {s : Stmt} (canonical : s.Canonical declares)
    (plain : ∀ t, Leaf.kept t ∈ s.yield → t.literal.Plain) : s.Proper := by
  induction s using Stmt.inductionOn generalizing declares with
  | missing => exact canonical.elim
  | bad | declare => trivial
  | expression e | print e =>
    exact Expr.Canonical.proper canonical fun t kept => plain t (by simp [yield, kept])
  | define name e => exact canonical.2.2.proper fun t kept => plain t (by simp [yield, kept])
  | block brace body ih =>
    refine properAll_iff.mpr fun s member => ?_
    refine ih s member (canonicalAll_iff.mp canonical.2 s member) fun t kept => ?_
    have inside : Leaf.kept t ∈ yieldAll body := mem_yieldAll.mpr ⟨s, member, kept⟩
    exact plain t (by simp [yield, inside])
  | ifThen condition thenBranch ih =>
    exact ⟨canonical.1.proper fun t kept => plain t (by simp [yield, kept]),
      ih canonical.2 fun t kept => plain t (by simp [yield, kept])⟩
  | ifElse condition thenBranch elseBranch then_ih else_ih =>
    obtain ⟨condition_canonical, then_canonical, _, else_canonical⟩ := canonical
    exact ⟨condition_canonical.proper fun t kept => plain t (by simp [yield, kept]),
      then_ih then_canonical fun t kept => plain t (by simp [yield, kept]),
      else_ih else_canonical fun t kept => plain t (by simp [yield, kept])⟩
  | loop condition body ih =>
    exact ⟨canonical.1.proper fun t kept => plain t (by simp [yield, kept]),
      ih canonical.2 fun t kept => plain t (by simp [yield, kept])⟩

theorem parse_proper : ∀ s ∈ (parse limit file source).program, s.Proper := by
  intro s member
  rcases mem_parseTokens member with ⟨start, e, rfl⟩ | ⟨canonical, kept⟩
  · trivial
  · exact canonical.proper fun t leaf => scan_plain (kept t leaf)

def Machine.left : EStateM.Result Stop Machine α → Machine
  | .ok _ m | .error _ m => m

/-- A machine that has only run what was parsed from bytes, any number of times, complaints or not, and
whether those runs ended or stopped. Between them its limit may change and its output be taken away. -/
inductive Machine.InSession : Machine → Prop where
  | fresh (limit : Nat) : InSession { limit }
  | settings (limit : Nat) (output : Array String) : InSession m → InSession { m with limit, output }
  | run (limit rounds : Nat) (file : String) (bytes : List UInt8) : InSession m →
      InSession (.left (runProgram rounds (parse limit file (Text.decodeUtf8 bytes)).program m))

theorem EndsWell.left_plain {result : EStateM.Result Stop Machine α}
    (ends : EndsWell allowed result) : (Machine.left result).Plain := by
  cases result with
  | ok a m => exact ends.2
  | error stop m => exact ends.2

theorem Machine.InSession.plain {m : Machine} (session : m.InSession) : m.Plain := by
  induction session with
  | fresh limit => exact ⟨by simp, by simp [Scope.Plain]⟩
  | settings limit output _ ih => exact ih
  | run limit rounds file bytes _ ih => exact (safe_runProgram parse_proper rounds _ ih).left_plain

/-- Whatever bytes are parsed in a session, the trees can be printed, and running them ends with a plain
value or none, or stops with an error that blames no operator for not being one. Every expression that
the run comes to has a plain value if it has one, and the scopes hold plain values before and after
every part of the run. -/
theorem session_run_safe {m : Machine} (session : m.InSession) (limit rounds : Nat) (file : String)
    (bytes : List UInt8) :
    (∃ text, printProgram (parse limit file (Text.decodeUtf8 bytes)).program = .ok text) ∧
    EndsWell Stmt.Gives (runProgram rounds (parse limit file (Text.decodeUtf8 bytes)).program m) ∧
    ∀ task m', Visits rounds (parse limit file (Text.decodeUtf8 bytes)).program m task m' →
      m'.Plain ∧ EndsWell task.Gives (task.run rounds m') := by
  refine ⟨printProgram_ok parse_proper, safe_runProgram parse_proper rounds m session.plain, ?_⟩
  intro task m' visits
  obtain ⟨proper, plain⟩ := visits.plain parse_proper session.plain
  exact ⟨plain, proper.safe m' plain⟩

/-- After a run that fails in a block, a source that does not parse to its end. -/
theorem session_run_safe_after_failure :
    let failing := "var a; \x7b a(); \x7d".toUTF8.toList
    let bytes := "print -a; (a + ;".toUTF8.toList
    let start := Machine.left (runProgram 9 (parse 9 "" (Text.decodeUtf8 failing)).program { limit := 7 })
    let program := (parse 9 "" (Text.decodeUtf8 bytes)).program
    (∃ text, printProgram program = .ok text) ∧ EndsWell Stmt.Gives (runProgram 9 program start) ∧
      ∀ task m, Visits 9 program start task m → m.Plain ∧ EndsWell task.Gives (task.run 9 m) := by
  intro failing bytes start program
  exact session_run_safe (.run 9 9 "" failing (.fresh 7)) 9 9 "" bytes

end LoxLang

import LoxLang.Proofs.Safety
import LoxLang.Proofs.Scanner.Tiling

/-! Runtime errors blame a token of the statement that failed. Whatever operation of a run raises an error, it
takes the token from the tree that is being run, and where evaluation nests too deeply, the token is looked for
inside the groupings. A tree without holes always has one, so the token stands in the source, on one of its
lines. -/
namespace LoxLang

namespace Expr

mutual

/-- The tokens that an expression keeps. -/
def tokens : Expr → List Token
  | missing => []
  | literal _ token => [token]
  | grouping inner => inner.tokens
  | unary operator right => operator :: right.tokens
  | binary left operator right => left.tokens ++ operator :: right.tokens
  | var name => [name]
  | assign name value => name :: value.tokens
  | call callee paren arguments => callee.tokens ++ (tokensAll arguments ++ [paren])

def tokensAll : List Expr → List Token
  | [] => []
  | e :: es => e.tokens ++ tokensAll es

end

theorem mem_tokensAll {es : List Expr} : t ∈ tokensAll es ↔ ∃ e ∈ es, t ∈ e.tokens := by
  induction es with
  | nil => simp [tokensAll]
  | cons e es ih => simp [tokensAll, ih]

/-- What an expression keeps stands in its row of tokens. -/
theorem kept_tokens {e : Expr} (kept : t ∈ e.tokens) : .kept t ∈ e.yield := by
  induction e using Expr.inductionOn with
  | missing => contradiction
  | literal | var => simpa [tokens, yield] using kept
  | grouping inner ih => simpa [yield] using ih kept
  | unary operator right ih | assign operator right ih =>
    rcases List.mem_cons.mp kept with rfl | inside
    · simp [yield]
    · simp [yield, ih inside]
  | binary left operator right left_ih right_ih =>
    rcases List.mem_append.mp kept with before | after
    · simp [yield, left_ih before]
    · rcases List.mem_cons.mp after with rfl | after
      · simp [yield]
      · simp [yield, right_ih after]
  | call callee paren arguments callee_ih arguments_ih =>
    rcases List.mem_append.mp kept with before | after
    · simp [yield, callee_ih before]
    · rcases List.mem_append.mp after with inside | last
      · obtain ⟨e, member, inside⟩ := mem_tokensAll.mp inside
        simp [yield, mem_yieldArguments member (arguments_ih e member inside)]
      · obtain rfl := List.mem_singleton.mp last
        simp [yield]

/-- The token to blame is found, through any number of groupings. -/
theorem Proper.token_mem {e : Expr} (proper : e.Proper) : e.token ∈ e.tokens := by
  induction e using Expr.inductionOn with
  | missing => exact proper.elim
  | grouping inner ih => exact ih proper
  | literal | unary | binary | var | assign | call => simp [token, tokens]

end Expr

namespace Stmt

mutual

/-- The tokens that a statement keeps. One that could not be parsed keeps the token that it began with. -/
def tokens : Stmt → List Token
  | missing => []
  | expression expr | print expr => expr.tokens
  | declare name => [name]
  | define name initializer => name :: initializer.tokens
  | block brace body => brace :: tokensAll body
  | ifThen condition thenBranch => condition.tokens ++ thenBranch.tokens
  | ifElse condition thenBranch elseBranch => condition.tokens ++ (thenBranch.tokens ++ elseBranch.tokens)
  | loop condition body => condition.tokens ++ body.tokens
  | bad start _ => [start]

def tokensAll : List Stmt → List Token
  | [] => []
  | s :: ss => s.tokens ++ tokensAll ss

end

theorem mem_tokensAll {ss : List Stmt} : t ∈ tokensAll ss ↔ ∃ s ∈ ss, t ∈ s.tokens := by
  induction ss with
  | nil => simp [tokensAll]
  | cons s ss ih => simp [tokensAll, ih]

/-- What a statement of the grammar keeps stands in its row of tokens. -/
theorem Canonical.kept_tokens {s : Stmt} (canonical : s.Canonical declares) (kept : t ∈ s.tokens) :
    .kept t ∈ s.yield := by
  induction s using Stmt.inductionOn generalizing declares with
  | missing | bad => exact canonical.elim
  | expression e | print e => simp [yield, Expr.kept_tokens kept]
  | declare name => simpa [tokens, yield] using kept
  | define name e =>
    rcases List.mem_cons.mp kept with rfl | inside
    · simp [yield]
    · simp [yield, Expr.kept_tokens inside]
  | block brace body ih =>
    rcases List.mem_cons.mp kept with rfl | inside
    · simp [yield]
    · obtain ⟨s, member, inside⟩ := mem_tokensAll.mp inside
      have below := ih s member (canonicalAll_iff.mp canonical.2 s member) inside
      simp [yield, mem_yieldAll.mpr ⟨s, member, below⟩]
  | ifThen condition thenBranch ih | loop condition thenBranch ih =>
    rcases List.mem_append.mp kept with before | after
    · simp [yield, Expr.kept_tokens before]
    · simp [yield, ih canonical.2 after]
  | ifElse condition thenBranch elseBranch then_ih else_ih =>
    obtain ⟨_, then_canonical, _, else_canonical⟩ := canonical
    rcases List.mem_append.mp kept with before | after
    · simp [yield, Expr.kept_tokens before]
    · rcases List.mem_append.mp after with inside | last
      · simp [yield, then_ih then_canonical inside]
      · simp [yield, else_ih else_canonical last]

theorem Proper.token_mem {s : Stmt} (proper : s.Proper) : s.token ∈ s.tokens := by
  cases s with
  | missing => exact proper.elim
  | expression e | print e => exact Expr.Proper.token_mem proper
  | declare | define | block | bad => simp [token, tokens]
  | ifThen | ifElse | loop => exact List.mem_append_left _ proper.1.token_mem

end Stmt

/-- A run that stops with an error blames one of the tokens. -/
def Stop.Blames (among : List Token) : Stop → Prop
  | error e => e.token ∈ among
  | fault _ | exhausted => True

namespace Eval

/-- Wherever the part is run, an error that it stops with blames one of the tokens. -/
def Blames (among : List Token) (part : Eval α) : Prop :=
  Meets (fun _ => True) part (fun _ _ => True) (fun stop _ => stop.Blames among)

variable {among more : List Token}

theorem blames_pure (a : α) : Blames among (pure a) := meets_pure fun _ _ => trivial

theorem Blames.bind {first : Eval α} {second : α → Eval β} (earlier : Blames among first)
    (later : ∀ a, Blames among (second a)) : Blames among (first >>= second) :=
  Meets.bind earlier later

theorem Blames.map {part : Eval α} (f : α → β) (blames : Blames among part) : Blames among (f <$> part) :=
  Meets.map blames

/-- A part of a tree keeps only tokens of the tree. -/
theorem Blames.mono {part : Eval α} (blames : Blames among part) (within : among ⊆ more) :
    Blames more part := by
  refine Meets.mono blames (fun _ _ => trivial) (fun _ _ _ => trivial) fun stop m blamed => ?_
  cases stop with
  | error e => exact within blamed
  | fault | exhausted => trivial

theorem blames_nest {part : Eval α} (member : token ∈ among) (inside : Blames among part) :
    Blames among (nest token part) := by
  refine meets_nest token (fun _ _ _ => member) ?_
  exact Meets.mono inside (fun _ _ => trivial) (fun _ _ _ => trivial) fun _ _ blamed => blamed

theorem blames_inNewScope {part : Eval α} (inside : Blames among part) : Blames among (inNewScope part) := by
  refine meets_inNewScope ?_
  exact Meets.mono inside (fun _ _ => trivial) (fun _ _ _ => trivial) fun _ _ blamed => blamed

theorem blames_get (member : name ∈ among) : Blames among (get name) :=
  meets_get (fun _ _ _ _ => trivial) fun _ _ _ => member

theorem blames_assign (member : name ∈ among) (value : Value) : Blames among (assign name value) :=
  meets_assign (fun _ _ _ _ => trivial) fun _ _ _ => member

theorem blames_define (name : String) (value : Value) : Blames among (define name value) :=
  fun _ _ => trivial

theorem blames_print (value : Value) : Blames among (print value) :=
  meets_print (fun _ _ _ _ => trivial) fun _ _ _ => trivial

theorem blames_ofOperator (member : operator ∈ among) (result : Except RuntimeCause Value) :
    Blames among (ofOperator operator result) := by
  cases result with
  | ok value => exact blames_pure value
  | error cause => exact meets_fail fun _ _ => member

theorem blames_whileTrue {test : Eval Bool} {body : Eval Unit} (tested : Blames among test)
    (again : Blames among body) (rounds : Nat) : Blames among (whileTrue test body rounds) := by
  refine meets_whileTrue ?_ again (fun _ _ => trivial) rounds
  refine Meets.mono tested (fun _ _ => trivial) (fun holds _ _ => ?_) fun _ _ blamed => blamed
  cases holds <;> trivial

end Eval

/-- Also when the nesting is too deep: the token that is then blamed is one of the expression itself. -/
theorem Expr.blames_evaluate {e : Expr} (proper : e.Proper) : Eval.Blames e.tokens e.evaluate := by
  induction e using Expr.inductionOn with
  | missing => exact proper.elim
  | literal value token => exact Eval.blames_pure value
  | grouping inner ih => exact Eval.blames_nest (Proper.token_mem (e := inner) proper) (ih proper)
  | unary operator right ih =>
    refine Eval.blames_nest List.mem_cons_self (((ih proper.2).mono ?_).bind fun value => ?_)
    · exact List.subset_cons_self operator right.tokens
    · exact Eval.blames_ofOperator List.mem_cons_self (applyUnary operator value)
  | binary left operator right left_ih right_ih =>
    have here : operator ∈ (binary left operator right).tokens := by simp [tokens]
    refine ((left_ih proper.2.1).mono ?_).bind fun a => ((right_ih proper.2.2).mono ?_).bind fun b => ?_
    · exact List.subset_append_left _ _
    · exact List.Subset.trans (List.subset_cons_self operator _) (List.subset_append_right _ _)
    · exact Eval.blames_ofOperator here (applyBinary operator a b)
  | var name => exact Eval.blames_get List.mem_cons_self
  | assign name value ih =>
    refine Eval.blames_nest List.mem_cons_self (((ih proper).mono ?_).bind fun v => ?_)
    · exact List.subset_cons_self name value.tokens
    · exact (Eval.blames_assign List.mem_cons_self v).bind fun _ => Eval.blames_pure v
  | call callee paren arguments =>
    have here : paren ∈ (call callee paren arguments).tokens := by simp [tokens]
    exact Eval.meets_fail fun _ _ => here

theorem Expr.blames_holds {e : Expr} (proper : e.Proper) : Eval.Blames e.tokens e.holds :=
  (blames_evaluate proper).map Value.truthy

namespace Stmt

theorem blames_executeAll {ss : List Stmt} (each : ∀ s ∈ ss, Eval.Blames among (s.execute rounds)) :
    Eval.Blames among (executeAll rounds ss) := by
  induction ss with
  | nil => exact Eval.blames_pure ()
  | cons s ss ih =>
    obtain ⟨here, later⟩ := List.forall_mem_cons.mp each
    rw [executeAll]
    exact here.bind fun _ => ih later

/-- A failure inside a block or a loop blames a token of the statement that stands there, so one of the whole.
-/
theorem blames_execute {s : Stmt} (proper : s.Proper) (rounds : Nat) :
    Eval.Blames s.tokens (s.execute rounds) := by
  have blamed := proper.token_mem
  induction s using Stmt.inductionOn with
  | missing => exact proper.elim
  | expression e =>
    rw [execute]
    exact Eval.blames_nest blamed (Expr.blames_evaluate proper)
  | print e =>
    rw [execute]
    refine Eval.blames_nest blamed ((Expr.blames_evaluate proper).bind fun value => ?_)
    exact (Eval.blames_print value).bind fun _ => Eval.blames_pure _
  | declare name =>
    rw [execute]
    exact Eval.blames_nest blamed ((Eval.blames_define name.lexeme .nil).bind fun _ => Eval.blames_pure _)
  | define name e =>
    rw [execute]
    refine Eval.blames_nest blamed (((Expr.blames_evaluate proper).mono ?_).bind fun value => ?_)
    · exact List.subset_cons_self name e.tokens
    · exact (Eval.blames_define name.lexeme value).bind fun _ => Eval.blames_pure _
  | block brace body ih =>
    have inside : Eval.Blames (block brace body).tokens (executeAll rounds body) := by
      refine blames_executeAll fun s member => ?_
      have below := properAll_iff.mp proper s member
      refine (ih s member below below.token_mem).mono fun t kept => ?_
      exact List.mem_cons_of_mem brace (mem_tokensAll.mpr ⟨s, member, kept⟩)
    rw [execute]
    exact Eval.blames_nest blamed ((Eval.blames_inNewScope inside).bind fun _ => Eval.blames_pure _)
  | ifThen condition thenBranch ih =>
    rw [execute]
    refine Eval.blames_nest blamed (((Expr.blames_holds proper.1).mono ?_).bind fun holds => ?_)
    · exact List.subset_append_left _ _
    · cases holds with
      | true =>
        refine ((ih proper.2 proper.2.token_mem).mono ?_).bind fun _ => Eval.blames_pure _
        exact List.subset_append_right _ _
      | false => exact Eval.blames_pure _
  | ifElse condition thenBranch elseBranch then_ih else_ih =>
    obtain ⟨condition_proper, then_proper, else_proper⟩ := proper
    rw [execute]
    refine Eval.blames_nest blamed (((Expr.blames_holds condition_proper).mono ?_).bind fun holds => ?_)
    · exact List.subset_append_left _ _
    · cases holds with
      | true =>
        refine ((then_ih then_proper then_proper.token_mem).mono ?_).bind fun _ => Eval.blames_pure _
        exact List.Subset.trans (List.subset_append_left _ _) (List.subset_append_right _ _)
      | false =>
        refine ((else_ih else_proper else_proper.token_mem).mono ?_).bind fun _ => Eval.blames_pure _
        exact List.Subset.trans (List.subset_append_right _ _) (List.subset_append_right _ _)
  | loop condition body ih =>
    have again : Eval.Blames (loop condition body).tokens (discard (body.execute rounds)) :=
      ((ih proper.2 proper.2.token_mem).mono (List.subset_append_right _ _)).map _
    have tested := (Expr.blames_holds proper.1).mono (List.subset_append_left _ body.tokens)
    rw [execute]
    refine Eval.blames_nest blamed ?_
    exact (Eval.blames_whileTrue tested again rounds).bind fun _ => Eval.blames_pure _
  | bad start error =>
    rw [execute]
    exact Eval.blames_nest blamed (Eval.blames_pure _)

end Stmt

/-- The token was scanned from the source and is not its end: its lexeme stands there, where the token says
that it begins. -/
structure Token.StandsIn (file : String) (source : List Char) (t : Token) : Prop where
  scanned : t ∈ (scan file source).1
  written : t.lexeme ≠ ""
  place : ∃ before after, source = before ++ t.lexeme.toList ++ after ∧ t.position = .next file before

/-- Apart from the end token, every token is text of the source. -/
theorem scan_stands (member : t ∈ (scan file source).1) (kind : t.kind ≠ .eof) : t.StandsIn file source := by
  obtain ⟨tiles, rest, tiled⟩ := tiled file [] source
  have among : t ∈ tiles.filterMap Tile.token? ++ [endToken (.last file source)] := tiled.tokens ▸ member
  rcases List.mem_append.mp among with laid | last
  · obtain ⟨tile, tile_member, holds⟩ := List.mem_filterMap.mp laid
    obtain rfl : tile = .token t := by
      cases tile with
      | token => rw [Option.some.inj holds]
      | blank | comment | stray => contradiction
    obtain ⟨earlier, later, rfl⟩ := List.append_of_mem tile_member
    obtain ⟨_, written, position⟩ := tiled.row.lies rfl
    refine ⟨member, written, earlier.flatMap Tile.chars, later.flatMap Tile.chars ++ rest, ?_, position⟩
    simpa [Tile.chars] using tiled.whole
  · obtain rfl := List.mem_singleton.mp last
    exact absurd rfl kind

theorem Token.StandsIn.line_le {t : Token} (stands : t.StandsIn file source) :
    1 ≤ t.line ∧ t.line ≤ lineCount source := by
  obtain ⟨before, after, rfl, position⟩ := stands.place
  have line : t.line = 1 + before.count '\n' := congrArg Position.line position
  simp only [line, lineCount, List.count_append]
  omega

/-- What the statements of a source keep stands in the source. -/
theorem parse_keeps (member : s ∈ (parse limit file source).program) (kept : t ∈ s.tokens) :
    t.StandsIn file source := by
  rcases mem_parseTokens member with ⟨start, e, rfl⟩ | ⟨canonical, given⟩
  · obtain rfl : t = start := List.mem_singleton.mp kept
    have taken := start_mem_parseTokens member
    refine scan_stands (List.takeWhile_subset _ taken) ?_
    simpa using List.mem_takeWhile_imp taken
  · have leaf := canonical.kept_tokens kept
    exact scan_stands (given t leaf) (canonical.bare _ leaf)

def Stop.error? : Stop → Option RuntimeError
  | error e => some e
  | fault .. | exhausted => none

def Machine.failure? : EStateM.Result Stop Machine α → Option RuntimeError
  | .ok .. => none
  | .error stop _ => stop.error?

theorem Machine.failure?_eq_some {result : EStateM.Result Stop Machine α} (failed : failure? result = some e) :
    ∃ m, result = .error (.error e) m := by
  cases result with
  | ok => contradiction
  | error stop m =>
    cases stop with
    | error => exact ⟨m, by rw [Option.some.inj failed]⟩
    | fault | exhausted => contradiction

/-- Only a tree with a hole meets a fault, and no source gives one. -/
theorem stops_with_error {m : Machine} (session : m.InSession)
    (stopped : runProgram rounds (parse limit file source).program m = .error stop m')
    (ends : stop ≠ .exhausted) : ∃ e, stop = .error e := by
  have safe : EndsWell Stmt.Gives (runProgram rounds (parse limit file source).program m) :=
    safe_runProgram parse_proper rounds m session.plain
  rw [stopped] at safe
  cases stop with
  | error e => exact ⟨e, rfl⟩
  | fault => exact safe.1.elim
  | exhausted => contradiction

/-- A run of a source that stops, and not for lack of rounds, stops with an error in one of its statements.
All statements before that one came to their end, and whatever comes after it makes no difference. The error
blames a token that the statement keeps, and this token stands in the source, on one of its lines. -/
theorem errors_blame_failed_statement {m m' : Machine} {stop : Stop} (session : m.InSession)
    (limit rounds : Nat) (file : String) (bytes : List UInt8)
    (stopped : runProgram rounds (parse limit file (Text.decodeUtf8 bytes)).program m = .error stop m')
    (ends : stop ≠ .exhausted) :
    ∃ earlier s later value between e,
      (parse limit file (Text.decodeUtf8 bytes)).program = earlier ++ s :: later ∧
      (∀ first, first <+: earlier → ∃ value between, runProgram rounds first m = .ok value between) ∧
      runProgram rounds earlier m = .ok value between ∧
      stop = .error e ∧ s.execute rounds between = .error (.error e) m' ∧
      (∀ others, runProgram rounds (earlier ++ s :: others) m = .error (.error e) m') ∧
      e.token ∈ s.tokens ∧ e.token.StandsIn file (Text.decodeUtf8 bytes) ∧
      1 ≤ e.token.line ∧ e.token.line ≤ lineCount (Text.decodeUtf8 bytes) := by
  obtain ⟨earlier, s, later, value, between, split, done, failed⟩ := runProgram_stops stopped
  have member : s ∈ (parse limit file (Text.decodeUtf8 bytes)).program := by simp [split]
  obtain ⟨e, rfl⟩ := stops_with_error session stopped ends
  have kept : e.token ∈ s.tokens :=
    (Stmt.blames_execute (parse_proper s member) rounds).of_error failed trivial
  have stands := parse_keeps member kept
  refine ⟨earlier, s, later, value, between, e, split, ?_, done, rfl, failed, ?_, kept, stands, stands.line_le⟩
  · rintro first ⟨rest, rfl⟩
    cases ran : runProgram rounds first m with
    | ok value after => exact ⟨value, after, rfl⟩
    | error other after =>
      rw [runProgram_after_error ran] at done
      contradiction
  · intro others
    rw [runProgram_after_ok done, Eval.bind_of_error failed]

/-- The third pair of parentheses is too deep. The number inside the fourth is blamed, on the second line. -/
theorem errors_blame_failed_statement_through_groupings :
    let m : Machine := .left (runProgram 9
      (parse 9 "" (Text.decodeUtf8 "\x7b -nil; \x7d".toUTF8.toList)).program { limit := 3 })
    let source := Text.decodeUtf8 "var a = 1;\nprint ((((1))));".toUTF8.toList
    let result := runProgram 9 (parse 9 "f" source).program m
    (Machine.failure? result).map (fun e => (e.cause, e.token.lexeme, e.token.line)) = some (.tooDeep, "1", 2) ∧
    ∃ earlier s later value between e m', (parse 9 "f" source).program = earlier ++ s :: later ∧
      runProgram 9 earlier m = .ok value between ∧ result = .error (.error e) m' ∧
      s.execute 9 between = .error (.error e) m' ∧ e.token ∈ s.tokens ∧ e.token.StandsIn "f" source := by
  intro m source result
  have seen : (Machine.failure? result).map (fun e => (e.cause, e.token.lexeme, e.token.line)) =
      some (.tooDeep, "1", 2) := by decide +kernel
  obtain ⟨e, failed, _⟩ := Option.map_eq_some_iff.mp seen
  obtain ⟨m', stopped⟩ := Machine.failure?_eq_some failed
  have session : m.InSession := .run 9 9 "" "\x7b -nil; \x7d".toUTF8.toList (.fresh 3)
  obtain ⟨earlier, s, later, value, between, e, split, _, done, same, fails, _, kept, stands, _⟩ :=
    errors_blame_failed_statement session 9 9 "f" "var a = 1;\nprint ((((1))));".toUTF8.toList stopped
      (by simp)
  exact ⟨seen, earlier, s, later, value, between, e, m', split, done, stopped.trans (by rw [same]), fails, kept,
    stands⟩

end LoxLang

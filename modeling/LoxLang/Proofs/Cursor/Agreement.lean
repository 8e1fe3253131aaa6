import LoxLang.Proofs.Cursor
import LoxLang.Proofs.Parser.Progress

/-! When a run of the cursor agrees with a parser: where the tokens up to the first end token are what
the parser is given, the run ends with the parser's result, has moved over the tokens that the parser
consumed, and has made the same complaints; it unwinds exactly where the parser gives up. Each
operation of the cursor has its rule, and so have nesting and loops. -/
namespace LoxLang

namespace Cursor

/-- The cursor after it has moved over `used`, with more complaints. -/
def after (c : Cursor) (used : List Token) (errors : List SyntaxError) : Cursor :=
  { c with current := c.current + used.length, errors := c.errors ++ errors }

@[simp] theorem after_nil (c : Cursor) : c.after [] [] = c := by
  simp [after]

theorem after_after (c : Cursor) (used more : List Token) (errors others : List SyntaxError) :
    (c.after used errors).after more others = c.after (used ++ more) (errors ++ others) := by
  simp [after, Nat.add_assoc]

/-- The cursor stands before `tokens`, which `stop` ends, with `room` levels left, and there are more
rounds than tokens. -/
structure Faces (stop : Token) (rounds room : Nat) (tokens : List Token) (c : Cursor) : Prop where
  ended : stop.kind = .eof
  bare : ∀ t ∈ tokens, t.kind ≠ .eof
  ahead : ∃ beyond, c.tokens.drop c.current = tokens ++ stop :: beyond
  short : tokens.length < rounds
  level : c.depth + room = c.limit

variable {stop : Token} {rounds room : Nat} {tokens used rest : List Token} {c : Cursor}

theorem Faces.after (faces : Faces stop rounds room tokens c) (split : tokens = used ++ rest)
    (errors : List SyntaxError) : Faces stop rounds room rest (c.after used errors) := by
  subst split
  obtain ⟨ended, bare, ⟨beyond, ahead⟩, short, level⟩ := faces
  refine ⟨ended, fun t member => bare t (by simp [member]), ⟨beyond, ?_⟩, ?_, level⟩
  · calc c.tokens.drop (c.current + used.length)
        = (c.tokens.drop c.current).drop used.length := by rw [List.drop_drop]
      _ = rest ++ stop :: beyond := by rw [ahead, List.append_assoc, List.drop_left]
  · rw [List.length_append] at short
    omega

/-- The token at the cursor is the next one, or the end token if none is left. -/
theorem Faces.token (faces : Faces stop rounds room tokens c) :
    c.tokens[c.current]? = some (tokens.headD stop) := by
  obtain ⟨beyond, ahead⟩ := faces.ahead
  rw [← List.head?_drop, ahead]
  cases tokens <;> rfl

theorem Faces.head_kind (faces : Faces stop rounds room tokens c) :
    (tokens.headD stop).kind = .eof ↔ tokens = [] := by
  cases tokens with
  | nil => simpa using faces.ended
  | cons t tokens => simpa using faces.bare t (by simp)

end Cursor

namespace Walk
open Cursor (Faces)

section Runs

variable {w : Walk α} {f : α → Walk β} {c d : Cursor}

theorem bind_done (first : w c = .done a d) : (w >>= f) c = f a d := by
  change Walk.bind w f c = _
  simp only [Walk.bind, first]

variable {stop : Token} {rounds room : Nat} {tokens : List Token}

theorem peek_eq (faces : Faces stop rounds room tokens c) :
    peek c = .done (tokens.headD stop) c := by
  simp only [peek, tokenAt, faces.token]

theorem advance_eq (faces : Faces stop rounds room (t :: tokens) c) :
    advance c = .done t (c.after [t] []) := by
  have moves : t.kind ≠ .eof := faces.bare t (by simp)
  have here : c.tokens[c.current]? = some t := faces.token
  rw [advance, bind_done (peek_eq faces), List.headD_cons, if_pos moves]
  change previous { c with current := c.current + 1 } = _
  simp [previous, tokenAt, here, Cursor.after]

end Runs

/-- The ending is what the reply says, where `g` turns the parser's result into that of the run. A run
that unwinds may leave any depth behind. -/
inductive Agrees (g : α → β) (c : Cursor) (tokens : List Token) : Reply α → Ending β → Prop where
  | done (a : α) (used : List Token) (errors : List SyntaxError) (rest : List Token)
      (split : tokens = used ++ rest) :
      Agrees g c tokens { outcome := .ok a, errors, rest } (.done (g a) (c.after used errors))
  | unwound (e : SyntaxError) (used : List Token) (errors : List SyntaxError) (rest : List Token)
      (depth : Nat) (split : tokens = used ++ rest) :
      Agrees g c tokens { outcome := .error e, errors, rest }
        (.unwound e { c.after used errors with depth })

/-- Wherever the cursor faces what the parser is given, the run agrees with the parser. -/
def Follows (stop : Token) (rounds room : Nat) (g : α → β) (w : Walk β) (p : Parser α) : Prop :=
  ∀ tokens c, Faces stop rounds room tokens c → Agrees g c tokens (p stop tokens) (w c)

/-- The same where `t` is the next token. -/
def FollowsAt (t : Token) (stop : Token) (rounds room : Nat) (g : α → β) (w : Walk β)
    (p : Parser α) : Prop :=
  ∀ tokens c, Faces stop rounds room tokens c → tokens.headD stop = t →
    Agrees g c tokens (p stop tokens) (w c)

variable {stop : Token} {c : Cursor} {tokens : List Token}

theorem agrees_pure {g : α → β} (stop : Token) (c : Cursor) (tokens : List Token) (same : g a = b) :
    Agrees g c tokens ((pure a : Parser α) stop tokens) ((pure b : Walk β) c) := by
  have agrees := Agrees.done (g := g) (c := c) a [] [] tokens rfl
  rw [Cursor.after_nil, same] at agrees
  exact agrees

/-- The second part starts from the cursor that the first one left, which faces the tokens that the parser left.
-/
theorem Agrees.bind {p : Parser α} {k : α → Parser γ} {w : Walk β} {f : β → Walk δ} {g : α → β}
    {h : γ → δ} (first : Agrees g c tokens (p stop tokens) (w c))
    (second : ∀ a used errors rest, p stop tokens = { outcome := .ok a, errors, rest } →
      tokens = used ++ rest → Agrees h (c.after used errors) rest (k a stop rest)
        (f (g a) (c.after used errors))) :
    Agrees h c tokens ((p >>= k) stop tokens) ((w >>= f) c) := by
  change Agrees h c tokens (Parser.bind p k stop tokens) (Walk.bind w f c)
  unfold Parser.bind Walk.bind
  generalize answer : p stop tokens = reply at first second
  generalize w c = ending at first
  cases first with
  | unwound e used errors rest depth split => exact .unwound e used errors rest depth split
  | done a used errors rest split =>
    have later := second a used errors rest rfl split
    dsimp only
    generalize k a stop rest = reply at later
    generalize f (g a) (c.after used errors) = ending at later
    cases later with
    | done b more others last parted =>
      rw [Cursor.after_after]
      exact .done b _ _ last (by rw [split, parted, List.append_assoc])
    | unwound e more others last depth parted =>
      rw [Cursor.after_after]
      exact .unwound e _ _ last depth (by rw [split, parted, List.append_assoc])

/-- The parser makes one more thing of its result, which is what the run had made all along. -/
theorem Agrees.into {p : Parser α} {f : α → γ} {h : γ → β}
    (agrees : Agrees (fun a => h (f a)) c tokens (p stop tokens) ending) :
    Agrees h c tokens ((p >>= fun a => pure (f a)) stop tokens) ending := by
  change Agrees h c tokens (Parser.bind p (fun a => Parser.pure (f a)) stop tokens) ending
  unfold Parser.bind
  generalize p stop tokens = reply at agrees
  cases agrees with
  | done a used errors rest split =>
    simp only [Parser.pure, List.append_nil]
    exact .done (f a) used errors rest split
  | unwound e used errors rest depth split => exact .unwound e used errors rest depth split

theorem Agrees.gaveUp {g : α → β} (agrees : Agrees g c tokens reply (.unwound e d)) :
    reply.outcome = .error e := by
  cases agrees
  rfl

section Rules

variable {rounds room : Nat}

theorem follows_pure {g : α → β} (same : g a = b) :
    Follows stop rounds room g (pure b) (pure a) :=
  fun tokens c _ => agrees_pure stop c tokens same

theorem Follows.bind {p : Parser α} {k : α → Parser γ} {w : Walk β} {f : β → Walk δ} {g : α → β}
    {h : γ → δ} (first : Follows stop rounds room g w p)
    (second : ∀ a, Follows stop rounds room h (f (g a)) (k a)) :
    Follows stop rounds room h (w >>= f) (p >>= k) := by
  intro tokens c faces
  apply (first tokens c faces).bind
  intro a used errors rest _ split
  exact second a rest _ (faces.after split errors)

theorem Follows.into {p : Parser α} {f : α → γ} {h : γ → β} {w : Walk β}
    (follows : Follows stop rounds room (fun a => h (f a)) w p) :
    Follows stop rounds room h w (p >>= fun a => pure (f a)) :=
  fun tokens c faces => (follows tokens c faces).into

theorem Follows.next {p : Parser α} {w : Walk β} {g : α → β} (t : Token)
    (follows : Follows stop rounds room g w p) : FollowsAt t stop rounds room g w p :=
  fun tokens c faces _ => follows tokens c faces

theorem follows_report (e : SyntaxError) :
    Follows stop rounds room id (report e) (Parser.report e) := by
  intro tokens c _
  exact .done () [] [e] tokens rfl

theorem follows_fail {g : α → β} (e : SyntaxError) :
    Follows stop rounds room g (fail e) (Parser.fail e) := by
  intro tokens c _
  exact .unwound e [] [e] tokens c.depth rfl

theorem follows_peek_bind {f : Token → Walk β} {k : Token → Parser α} {g : α → β}
    (each : ∀ t, FollowsAt t stop rounds room g (f t) (k t)) :
    Follows stop rounds room g (peek >>= f) (Parser.peek >>= k) := by
  intro tokens c faces
  rw [bind_done (peek_eq faces)]
  have seen : Parser.peek.Accepts stop tokens (tokens.headD stop) tokens := rfl
  rw [seen.bind_eq]
  exact each _ tokens c faces rfl

/-- A token that is not the end token is moved over. -/
theorem followsAt_advance_bind {f : Token → Walk β} {k : Unit → Parser α} {g : α → β}
    (moves : t.kind ≠ .eof) (later : Follows stop rounds room g (f t) (k ())) :
    FollowsAt t stop rounds room g (advance >>= f) (Parser.advance >>= k) := by
  intro tokens c faces next
  cases tokens with
  | nil =>
    subst next
    exact absurd faces.ended moves
  | cons first tokens =>
    obtain rfl : first = t := next
    have agrees := Agrees.done (g := fun _ : Unit => first) (c := c) () [first] [] tokens rfl
    rw [← advance_eq faces] at agrees
    apply Agrees.bind (p := Parser.advance) agrees
    intro _ used errors rest _ split
    exact later rest _ (faces.after split errors)

theorem follows_check (kind : TokenKind) :
    Follows stop rounds room id (check kind) (Parser.check kind) :=
  follows_peek_bind fun t => (follows_pure rfl).next t

/-- To the cursor the end of the file is a token like any other, while the parser has none left there. So it may
not be asked for. -/
theorem follows_accept? {kinds : List TokenKind} (proper : .eof ∉ kinds) :
    Follows stop rounds room id (accept? kinds) (Parser.accept? kinds) := by
  intro tokens c faces
  rw [accept?, bind_done (peek_eq faces)]
  cases tokens with
  | nil =>
    have absent : stop.kind ∉ kinds := by rwa [faces.ended]
    simp only [List.headD_nil, List.contains_eq_mem, absent, decide_false, Bool.false_eq_true,
      if_false, Parser.accept?]
    exact agrees_pure stop c [] rfl
  | cons t tokens =>
    by_cases member : t.kind ∈ kinds
    · simp only [List.headD_cons, List.contains_eq_mem, member, decide_true, if_true,
        Parser.accept?]
      rw [bind_done (advance_eq faces)]
      exact .done (some t) [t] [] tokens rfl
    · simp only [List.headD_cons, List.contains_eq_mem, member, decide_false, Bool.false_eq_true,
        if_false, Parser.accept?]
      exact agrees_pure stop c (t :: tokens) rfl

theorem follows_expect (expected : Expectation) :
    Follows stop rounds room id (expect expected) (Parser.expect expected) := by
  have proper : expected.kind ≠ .eof := by cases expected <;> decide
  intro tokens c faces
  have checked : check expected.kind c = .done ((tokens.headD stop).kind == expected.kind) c :=
    bind_done (peek_eq faces)
  rw [expect, bind_done checked]
  by_cases present : (tokens.headD stop).kind = expected.kind
  · cases tokens with
    | nil => exact absurd (present.symm.trans faces.ended) proper
    | cons t tokens =>
      have accepted : (Parser.expect expected).Accepts stop (t :: tokens) t tokens := by
        simpa using present
      simp only [present, beq_self_eq_true, if_true]
      rw [accepted, advance_eq faces]
      exact .done t [t] [] tokens rfl
  · have absent : (Parser.accept? [expected.kind]).Accepts stop tokens none tokens :=
      Parser.accepts_accept?_none.mpr ⟨rfl, Parser.avoids_of_headD (mt List.mem_singleton.mp present)⟩
    simp only [beq_eq_false_iff_ne.mpr present, Bool.false_eq_true, if_false]
    rw [Parser.expect, absent.bind_eq]
    exact follows_peek_bind (fun t => (follows_fail (.missing expected t)).next t) tokens c faces

/-- With no room left, entering fails. The level that was not entered stays counted. -/
theorem follows_nest_full {w : Walk β} {p : Parser α} {g : α → β}
    (refuses : ∀ tokens, p stop tokens = { outcome := .error (.tooDeep (tokens.headD stop))
                                           errors := [.tooDeep (tokens.headD stop)]
                                           rest := tokens }) :
    Follows stop rounds 0 g (nest w) p := by
  intro tokens c faces
  have full : c.limit < c.depth + 1 := Nat.lt_succ_of_le (Nat.le_of_eq faces.level.symm)
  have seen : peek { c with depth := c.depth + 1 } =
      .done (tokens.headD stop) { c with depth := c.depth + 1 } := by
    simp only [peek, tokenAt, faces.token]
  have refused : enter c = .unwound (.tooDeep (tokens.headD stop))
      { c.after [] [.tooDeep (tokens.headD stop)] with depth := c.depth + 1 } := by
    change (if c.limit < c.depth + 1 then _ else _) = _
    rw [if_pos full, bind_done seen]
    rfl
  rw [refuses]
  change Agrees g c tokens _ (Walk.bind enter (fun _ => leaving w) c)
  simp only [Walk.bind, refused]
  exact .unwound _ [] _ tokens (c.depth + 1) rfl

/-- The cursor counts levels upwards and compares with its limit, where the parser counts down the room that is
left. -/
theorem Follows.nest {w : Walk β} {p : Parser α} {g : α → β} (inside : Follows stop rounds room g w p) :
    Follows stop rounds (room + 1) g (nest w) p := by
  intro tokens c faces
  have level := faces.level
  have entered : enter c = .done () { c with depth := c.depth + 1 } := by
    change (if c.limit < c.depth + 1 then _ else _) = _
    rw [if_neg (by omega)]
  have deeper : Faces stop rounds room tokens { c with depth := c.depth + 1 } :=
    { faces with level := by simp only; omega }
  have agrees := inside tokens _ deeper
  rw [Walk.nest, bind_done entered]
  unfold leaving
  generalize p stop tokens = reply at agrees
  generalize w { c with depth := c.depth + 1 } = ending at agrees
  cases agrees with
  | done a used errors rest split => exact .done a used errors rest split
  | unwound e used errors rest depth split => exact .unwound e used errors rest (depth - 1) split

/-- A loop that folds the items of a repeated parser, while `holds` relates what it has so far to
their number. The items cost tokens, so there are rounds enough. -/
theorem follows_iterate {step : Nat → Parser (Option α)} {next : β → Walk (Option β)}
    {build : β → α → β} (holds : Nat → β → Prop) (steady : Parser.Steady step stop)
    (each : ∀ count b, holds count b →
      Follows stop rounds room (Option.map (build b)) (next b) (step count))
    (kept : ∀ count b item, holds count b → holds (count + 1) (build b item))
    (first : holds count b) :
    Follows stop rounds room (List.foldl build b) (iterate next rounds b)
      (Parser.repeatedFrom step count) := by
  have bounded : ∀ budget count b tokens c, holds count b → Faces stop rounds room tokens c →
      tokens.length < budget → Agrees (List.foldl build b) c tokens
        (Parser.repeatedFrom step count stop tokens) (iterate next budget b c) := by
    intro budget
    induction budget with
    | zero =>
      intro _ _ _ _ _ _ none
      contradiction
    | succ budget ih =>
      intro count b tokens c here faces enough
      rw [Parser.repeatedFrom_round steady, Parser.round, iterate]
      apply (each count b here tokens c faces).bind
      rintro (_ | item) used errors rest answer split
      · exact agrees_pure stop _ rest rfl
      · have fewer : rest.length < tokens.length := by
          have costs := steady.costs count tokens (congrArg Reply.outcome answer)
          rwa [answer] at costs
        apply Agrees.into
        exact ih (count + 1) (build b item) rest _ (kept count b item here)
          (faces.after split errors) (by omega)
  exact fun tokens c faces => bounded rounds count b tokens c first faces faces.short

theorem follows_iterate_const {step : Parser (Option α)} {next : β → Walk (Option β)}
    {build : β → α → β} (steady : Parser.Steady (fun _ => step) stop)
    (each : ∀ b, Follows stop rounds room (Option.map (build b)) (next b) step) (b : β) :
    Follows stop rounds room (List.foldl build b) (iterate next rounds b)
      (Parser.repeated fun _ => step) :=
  follows_iterate (fun _ _ => True) steady (fun _ b _ => each b) (fun _ _ _ _ => trivial) trivial

end Rules

end Walk
end LoxLang

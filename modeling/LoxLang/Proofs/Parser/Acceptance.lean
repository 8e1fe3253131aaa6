import LoxLang.Parser.Basic

/-! Runs of a parser that end without a complaint, taken apart along the parser's own structure, and
the unrolling of a repeated parser, whose number of rounds never shows. -/
namespace LoxLang
namespace Parser

/-- The parser turns the tokens into `a` without any complaint and leaves `rest`. -/
def Accepts (p : Parser α) (stop : Token) (tokens : List Token) (a : α) (rest : List Token) : Prop :=
  p stop tokens = { outcome := .ok a, errors := [], rest }

theorem not_accepts_of_errors {p : Parser α} (complaints : (p stop tokens).errors ≠ []) :
    ¬ p.Accepts stop tokens a rest := by
  intro accepted
  exact complaints (congrArg Reply.errors accepted)

@[simp] theorem accepts_pure :
    (pure a : Parser α).Accepts stop tokens b rest ↔ a = b ∧ tokens = rest := by
  change Parser.pure a stop tokens = _ ↔ _
  simp [Parser.pure]

/-- A complaint of either parser would be one of both together, so neither makes any. -/
@[simp] theorem accepts_bind {p : Parser α} {f : α → Parser β} :
    (p >>= f).Accepts stop tokens b rest ↔
      ∃ a mid, p.Accepts stop tokens a mid ∧ (f a).Accepts stop mid b rest := by
  change Parser.bind p f stop tokens = _ ↔ _
  unfold Accepts Parser.bind
  generalize p stop tokens = first
  obtain ⟨outcome, errors, mid⟩ := first
  cases outcome with
  | error e => simp
  | ok a =>
    simp only [Reply.mk.injEq, Except.ok.injEq, List.append_eq_nil_iff]
    constructor
    · rintro ⟨done, ⟨rfl, none⟩, left⟩
      refine ⟨a, mid, ⟨rfl, rfl, rfl⟩, ?_⟩
      rw [← done, ← none, ← left]
    · rintro ⟨_, _, ⟨rfl, rfl, rfl⟩, second⟩
      rw [second]
      exact ⟨rfl, ⟨rfl, rfl⟩, rfl⟩

/-- After a run without complaint the answer is that of what comes next. -/
theorem Accepts.bind_eq {p : Parser α} {f : α → Parser β} (accepted : p.Accepts stop tokens a mid) :
    (p >>= f) stop tokens = f a stop mid := by
  change Parser.bind p f stop tokens = _
  simp only [Parser.bind, show p stop tokens = _ from accepted, List.nil_append]

@[simp] theorem accepts_peek :
    peek.Accepts stop tokens t rest ↔ tokens.headD stop = t ∧ tokens = rest := by
  simp [Accepts, peek]

@[simp] theorem accepts_advance {u : Unit} :
    advance.Accepts stop tokens u rest ↔ tokens.tail = rest := by
  simp [Accepts, advance]

@[simp] theorem not_accepts_report : ¬ (report e).Accepts stop tokens a rest := by
  simp [Accepts, report]

@[simp] theorem not_accepts_fail : ¬ (fail e : Parser α).Accepts stop tokens a rest := by
  simp [Accepts, fail]

@[simp] theorem not_accepts_tooDeep : ¬ (tooDeep : Parser α).Accepts stop tokens a rest := by
  simp [tooDeep]

@[simp] theorem accepts_check :
    (check kind).Accepts stop tokens b rest ↔
      ((tokens.headD stop).kind == kind) = b ∧ tokens = rest := by
  simp only [check, accepts_bind, accepts_peek, accepts_pure]
  constructor
  · rintro ⟨_, _, ⟨rfl, rfl⟩, answer⟩
    exact answer
  · rintro ⟨rfl, rfl⟩
    exact ⟨_, _, ⟨rfl, rfl⟩, rfl, rfl⟩

def Avoids (kinds : List TokenKind) (tokens : List Token) : Prop :=
  ∀ t ∈ tokens.head?, t.kind ∉ kinds

@[simp] theorem avoids_nil : Avoids kinds [] := by
  simp [Avoids]

@[simp] theorem avoids_cons : Avoids kinds (t :: tokens) ↔ t.kind ∉ kinds := by
  simp [Avoids]

theorem avoids_of_headD (absent : (tokens.headD stop).kind ∉ kinds) : Avoids kinds tokens := by
  cases tokens with
  | nil => exact avoids_nil
  | cons t tokens => exact avoids_cons.mpr absent

@[simp] theorem accepts_accept?_some :
    (accept? kinds).Accepts stop tokens (some t) rest ↔ tokens = t :: rest ∧ t.kind ∈ kinds := by
  cases tokens with
  | nil => simp [Accepts, accept?]
  | cons first more =>
    by_cases member : first.kind ∈ kinds
    · simp only [Accepts, accept?, List.contains_eq_mem, member, decide_true, if_true,
        Reply.mk.injEq, Except.ok.injEq, Option.some.injEq, true_and, List.cons.injEq]
      constructor
      · rintro ⟨rfl, rfl⟩
        exact ⟨⟨rfl, rfl⟩, member⟩
      · rintro ⟨⟨rfl, rfl⟩, _⟩
        exact ⟨rfl, rfl⟩
    · simp only [Accepts, accept?, List.contains_eq_mem, member, decide_false,
        Bool.false_eq_true, if_false, Reply.mk.injEq, Except.ok.injEq, reduceCtorEq, false_and,
        List.cons.injEq, false_iff, not_and]
      rintro ⟨rfl, _⟩
      exact member

@[simp] theorem accepts_accept?_none :
    (accept? kinds).Accepts stop tokens none rest ↔ tokens = rest ∧ Avoids kinds tokens := by
  cases tokens with
  | nil => simp [Accepts, accept?]
  | cons first more => by_cases member : first.kind ∈ kinds <;> simp [Accepts, accept?, member]

/-- The two ways to go on after an optional token: it is there and taken, or the tokens do not begin with it. -/
theorem accepts_accept?_bind {k : Option Token → Parser β} :
    (accept? kinds >>= k).Accepts stop tokens b rest ↔
      (Avoids kinds tokens ∧ (k none).Accepts stop tokens b rest) ∨
      ∃ t more, tokens = t :: more ∧ t.kind ∈ kinds ∧ (k (some t)).Accepts stop more b rest := by
  rw [accepts_bind]
  constructor
  · rintro ⟨_ | t, mid, taken, after⟩
    · obtain ⟨rfl, avoids⟩ := accepts_accept?_none.mp taken
      exact .inl ⟨avoids, after⟩
    · obtain ⟨rfl, member⟩ := accepts_accept?_some.mp taken
      exact .inr ⟨t, mid, rfl, member, after⟩
  · rintro (⟨avoids, after⟩ | ⟨t, more, rfl, member, after⟩)
    · exact ⟨none, tokens, by simp [avoids], after⟩
    · exact ⟨some t, more, by simp [member], after⟩

@[simp] theorem accepts_expect :
    (expect expected).Accepts stop tokens t rest ↔
      tokens = t :: rest ∧ t.kind = expected.kind := by
  unfold expect
  rw [accepts_accept?_bind]
  constructor
  · rintro (⟨_, after⟩ | ⟨t, more, rfl, member, after⟩)
    · simp at after
    · obtain ⟨rfl, rfl⟩ := accepts_pure.mp after
      exact ⟨rfl, by simpa using member⟩
  · rintro ⟨rfl, same⟩
    exact .inr ⟨t, rest, rfl, by simp [same], by simp⟩

/-- A step that can be repeated: it gives nothing at the end, and each of its items costs a token. -/
structure Steady (step : Nat → Parser (Option α)) (stop : Token) : Prop where
  ends : ∀ count, (step count).Accepts stop [] none []
  costs : ∀ count tokens, (step count stop tokens).outcome = .ok (some a) →
    (step count stop tokens).rest.length < tokens.length

def repeatedFrom (step : Nat → Parser (Option α)) (count : Nat) : Parser (List α) :=
  fun stop tokens => upTo step count tokens stop tokens

theorem repeated_eq (step : Nat → Parser (Option α)) : repeated step = repeatedFrom step 0 := rfl

/-- One round of a repeated parser that has `later` for the others. -/
def round (step : Nat → Parser (Option α)) (count : Nat) (later : Parser (List α)) :
    Parser (List α) := do
  match ← step count with
  | none => return []
  | some item => return item :: (← later)

theorem upTo_cons (step : Nat → Parser (Option α)) (count : Nat) (t : Token) (rounds : List Token) :
    upTo step count (t :: rounds) = round step count (upTo step (count + 1) rounds) := rfl

theorem bind_congr {p : Parser α} {f g : α → Parser β}
    (same : ∀ a, (p stop tokens).outcome = .ok a →
      f a stop (p stop tokens).rest = g a stop (p stop tokens).rest) :
    (p >>= f) stop tokens = (p >>= g) stop tokens := by
  change Parser.bind p f stop tokens = Parser.bind p g stop tokens
  simp only [Parser.bind]
  cases done : (p stop tokens).outcome with
  | error e => rfl
  | ok a => simp only [same a done]

/-- One round only depends on what the later ones do with fewer tokens. -/
theorem round_congr {step : Nat → Parser (Option α)} (steady : Steady step stop)
    (same : ∀ rest : List Token, rest.length < tokens.length → p stop rest = q stop rest) :
    round step count p stop tokens = round step count q stop tokens := by
  apply bind_congr
  rintro (_ | item) done
  · rfl
  · change Parser.bind p _ stop _ = Parser.bind q _ stop _
    simp only [Parser.bind, same _ (steady.costs count tokens done)]

theorem round_nil {step : Nat → Parser (Option α)} (steady : Steady step stop) (later : Parser (List α)) :
    (round step count later).Accepts stop [] [] [] := by
  unfold round
  simp only [accepts_bind]
  exact ⟨none, [], steady.ends count, by simp⟩

/-- How many rounds are allowed does not matter once there is one for each token. -/
theorem upTo_enough {step : Nat → Parser (Option α)} (steady : Steady step stop)
    (enough : tokens.length ≤ rounds.length) (also : tokens.length ≤ others.length) :
    upTo step count rounds stop tokens = upTo step count others stop tokens := by
  induction rounds generalizing count tokens others with
  | nil =>
    obtain rfl := List.eq_nil_of_length_eq_zero (Nat.le_zero.mp enough)
    cases others with
    | nil => rfl
    | cons t others => exact (round_nil steady _).symm
  | cons t rounds ih =>
    cases others with
    | nil =>
      obtain rfl := List.eq_nil_of_length_eq_zero (Nat.le_zero.mp also)
      exact round_nil steady _
    | cons u others =>
      rw [upTo_cons, upTo_cons]
      apply round_congr steady
      intro rest fewer
      simp only [List.length_cons] at enough also
      exact ih (by omega) (by omega)

/-- A repeated parser is one round, and then the repeated parser on what is left. -/
theorem repeatedFrom_round {step : Nat → Parser (Option α)} (steady : Steady step stop)
    (count : Nat) (tokens : List Token) :
    repeatedFrom step count stop tokens =
      round step count (repeatedFrom step (count + 1)) stop tokens := by
  cases tokens with
  | nil => exact (round_nil steady _).symm
  | cons t tokens =>
    unfold repeatedFrom
    rw [upTo_cons]
    apply round_congr steady
    intro rest fewer
    exact upTo_enough steady (by simpa [Nat.lt_succ_iff] using fewer) (Nat.le_refl _)

theorem accepts_repeatedFrom_nil {step : Nat → Parser (Option α)} (steady : Steady step stop) :
    (repeatedFrom step count).Accepts stop tokens [] rest ↔
      (step count).Accepts stop tokens none rest := by
  rw [Accepts, repeatedFrom_round steady, ← Accepts, round, accepts_bind]
  constructor
  · rintro ⟨_ | item, mid, stepped, after⟩
    · obtain ⟨_, rfl⟩ := accepts_pure.mp after
      exact stepped
    · simp at after
  · intro stepped
    exact ⟨none, rest, stepped, by simp⟩

/-- The count goes up with each item, which the limit on arguments depends on. -/
theorem accepts_repeatedFrom_cons {step : Nat → Parser (Option α)} (steady : Steady step stop) :
    (repeatedFrom step count).Accepts stop tokens (item :: items) rest ↔
      ∃ mid, (step count).Accepts stop tokens (some item) mid ∧
        (repeatedFrom step (count + 1)).Accepts stop mid items rest := by
  rw [Accepts, repeatedFrom_round steady, ← Accepts, round, accepts_bind]
  constructor
  · rintro ⟨_ | found, mid, stepped, after⟩
    · simp at after
    · simp only [accepts_bind, accepts_pure, List.cons.injEq] at after
      obtain ⟨_, _, later, ⟨rfl, rfl⟩, rfl⟩ := after
      exact ⟨mid, stepped, later⟩
  · rintro ⟨mid, stepped, later⟩
    exact ⟨some item, mid, stepped, by simpa using later⟩

section Constant

variable {step : Parser (Option α)} {stop : Token} (steady : Steady (fun _ => step) stop)

theorem repeatedFrom_const (step : Parser (Option α)) (count : Nat) :
    repeatedFrom (fun _ => step) count = repeated fun _ => step := by
  have same : ∀ rounds count other,
      upTo (fun _ => step) count rounds = upTo (fun _ => step) other rounds := by
    intro rounds
    induction rounds with
    | nil => exact fun _ _ => rfl
    | cons t rounds ih =>
      intro count other
      rw [upTo_cons, upTo_cons, ih (count + 1) (other + 1)]
      rfl
  funext stop tokens
  exact congrFun (congrFun (same tokens count 0) stop) tokens

include steady

theorem accepts_repeated_nil :
    (repeated fun _ => step).Accepts stop tokens [] rest ↔ step.Accepts stop tokens none rest :=
  accepts_repeatedFrom_nil steady

theorem accepts_repeated_cons :
    (repeated fun _ => step).Accepts stop tokens (item :: items) rest ↔
      ∃ mid, step.Accepts stop tokens (some item) mid ∧
        (repeated fun _ => step).Accepts stop mid items rest := by
  rw [repeated_eq, accepts_repeatedFrom_cons steady, repeatedFrom_const, repeatedFrom_const]

/-- An item that is read without complaint comes before the items of what is left. -/
theorem repeated_item (accepted : step.Accepts stop tokens (some item) mid)
    (done : (repeated (fun _ => step) stop mid).outcome = .ok items) :
    repeated (fun _ => step) stop tokens =
      { repeated (fun _ => step) stop mid with outcome := .ok (item :: items) } := by
  rw [repeated_eq, repeatedFrom_round steady, round, accepted.bind_eq, repeatedFrom_const]
  change Parser.bind (repeated fun _ => step) (fun items => pure (item :: items)) stop mid = _
  simp only [Parser.bind, done, pure, Parser.pure, List.append_nil, repeatedFrom_const]

/-- What each step keeps, while its items are folded from the left, holds when they are all read. -/
theorem repeated_keeps (build : β → α → β) (holds : β → List Token → Prop)
    (kept : ∀ b mid item next, holds b mid → step.Accepts stop mid (some item) next →
      holds (build b item) next)
    (start : holds first mid) (accepted : (repeated fun _ => step).Accepts stop mid items rest) :
    ∃ last, holds (items.foldl build first) last ∧ step.Accepts stop last none rest := by
  induction items generalizing first mid with
  | nil => exact ⟨mid, start, (accepts_repeated_nil steady).mp accepted⟩
  | cons item items ih =>
    obtain ⟨next, stepped, later⟩ := (accepts_repeated_cons steady).mp accepted
    exact ih (kept first mid item next start stepped) later

end Constant

end Parser
end LoxLang

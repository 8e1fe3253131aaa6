import LoxLang.Proofs.Grammar
import LoxLang.Proofs.Parser.Progress

/-! Each level of the expression parser accepts exactly the canonical expressions of that level. The
loops of a level stop where the expression stops, because what follows cannot continue it, and the
operands that a loop collects are the left spine of the tree. -/
namespace LoxLang
namespace Parser

/-- Nothing at the start of the tokens continues an expression that binds as tightly as `level`. -/
def Closed (level : Nat) (tokens : List Token) : Prop :=
  ∀ t ∈ tokens.head?, t.kind ≠ .leftParen ∧ (level = 0 → t.kind ≠ .equal) ∧
    (t.kind.precedence = 0 ∨ t.kind.precedence < level)

/-- The expression is one of the level with less than `bound` levels of nesting; the tokens begin with
it, and `rest` is what comes after it. -/
structure Stands (level bound : Nat) (e : Expr) (tokens rest : List Token) : Prop where
  canonical : e.Canonical
  tight : level ≤ e.rank
  shallow : e.nesting < bound
  reading : Reads e.yield tokens rest

/-- The expression stands at the start of the tokens, and nothing after it continues it. -/
structure Fits (level bound : Nat) (e : Expr) (tokens rest : List Token) : Prop extends
    Stands level bound e tokens rest where
  closed : Closed level rest

/-- The parser accepts exactly the expressions of the level. -/
def Parses (p : Parser Expr) (stop : Token) (level bound : Nat) : Prop :=
  ∀ tokens e rest, p.Accepts stop tokens e rest ↔ Fits level bound e tokens rest

/-- Without room no expression fits, and none is accepted. -/
theorem parses_tooDeep : Parses tooDeep stop level 0 := by
  intro tokens e rest
  constructor
  · intro accepted
    exact absurd accepted not_accepts_tooDeep
  · intro fits
    exact absurd fits.shallow (Nat.not_lt_zero _)

def isPrimary : Expr → Bool
  | .literal .. | .var _ | .grouping _ => true
  | _ => false

/-- Tokens that begin with one of these kinds continue no expression. -/
theorem closed_cons (closing : t.kind = .rightParen ∨ t.kind = .comma ∨ t.kind = .semicolon) :
    Closed level (t :: tokens) := by
  intro u head
  obtain rfl : t = u := by simpa using head
  rcases closing with kind | kind | kind <;> simp [kind, TokenKind.precedence]

theorem closed_zero : Closed 0 tokens ↔ Closed 1 tokens ∧ Avoids [.equal] tokens := by
  cases tokens with
  | nil => simp [Closed]
  | cons t tokens => simp [Closed, and_left_comm, and_comm]

theorem Fits.start (fits : Fits level bound e tokens rest) :
    ∃ t more, tokens = t :: more ∧ t.kind.startsExpression = true := by
  obtain ⟨leaf, leaves, same, starts⟩ := fits.canonical.starts
  have reading := fits.reading
  rw [same, reads_cons] at reading
  obtain ⟨t, more, rfl, here, _⟩ := reading
  exact ⟨t, more, rfl, by rw [here.kind_eq]; exact starts⟩

theorem accepts_nextArgument_none {inner : Parser Expr} :
    (nextArgument inner count).Accepts stop tokens none rest ↔
      tokens = rest ∧ Avoids [.comma] tokens := by
  unfold nextArgument
  rw [accepts_accept?_bind]
  constructor
  · rintro (⟨avoids, after⟩ | ⟨comma, more, rfl, _, after⟩)
    · exact ⟨(accepts_pure.mp after).2, avoids⟩
    · dsimp only at after
      split at after <;> simp at after
  · rintro ⟨rfl, avoids⟩
    exact .inl ⟨avoids, by simp⟩

theorem accepts_nextArgument_some {inner : Parser Expr} :
    (nextArgument inner count).Accepts stop tokens (some e) rest ↔
      ∃ comma more, tokens = comma :: more ∧ comma.kind = .comma ∧ count + 1 < 255 ∧
        inner.Accepts stop more e rest := by
  unfold nextArgument
  rw [accepts_accept?_bind]
  constructor
  · rintro (⟨_, after⟩ | ⟨comma, more, rfl, member, after⟩)
    · simp at after
    · dsimp only at after
      split at after
      · simp at after
      · rename_i few
        simp only [accepts_bind, accepts_pure, Option.some.injEq] at after
        obtain ⟨_, _, accepted, rfl, rfl⟩ := after
        have fewer : count + 1 < 255 := Nat.lt_of_not_le few
        exact ⟨comma, more, rfl, by simpa using member, fewer, accepted⟩
  · rintro ⟨comma, more, rfl, kind, few, accepted⟩
    refine .inr ⟨comma, more, rfl, by simp [kind], ?_⟩
    dsimp only
    rw [if_neg (Nat.not_le_of_lt few : ¬ maxArguments ≤ count + 1)]
    simpa using accepted

section Arguments

variable {inner : Parser Expr} {stop : Token} {room : Nat} (orderly : Orderly inner)
  (parses : Parses inner stop 0 room)
include orderly parses

/-- Arguments after the first. Before them came `count` others, not counting the first. -/
theorem accepts_furtherArguments (closing : paren.kind = .rightParen) (few : count + 1 ≤ 255) :
    (repeatedFrom (nextArgument inner) count).Accepts stop tokens args (paren :: rest) ↔
      Expr.CanonicalAll args ∧ count + 1 + args.length ≤ 255 ∧ Expr.nestingAll args ≤ room ∧
        Reads (Expr.yieldFurther args) tokens (paren :: rest) := by
  induction args generalizing count tokens with
  | nil =>
    rw [accepts_repeatedFrom_nil (steady_nextArgument orderly), accepts_nextArgument_none]
    simp only [Expr.CanonicalAll, Expr.nestingAll, Expr.yieldFurther, reads_nil, true_and]
    constructor
    · rintro ⟨rfl, _⟩
      exact ⟨few, Nat.zero_le _, rfl⟩
    · rintro ⟨_, _, rfl⟩
      simp [closing]
  | cons e args ih =>
    rw [accepts_repeatedFrom_cons (steady_nextArgument orderly)]
    simp only [accepts_nextArgument_some, Expr.CanonicalAll, Expr.nestingAll, Expr.yieldFurther,
      reads_cons, reads_append, List.length_cons, Leaf.Matches]
    constructor
    · rintro ⟨mid, ⟨comma, more, rfl, kind, fewer, accepted⟩, later⟩
      have fits := (parses _ _ _).mp accepted
      have shallow := fits.shallow
      obtain ⟨canonical, bound, nested, reading⟩ := (ih (by omega)).mp later
      exact ⟨⟨fits.canonical, canonical⟩, by omega, by omega,
        comma, more, rfl, kind, mid, fits.reading, reading⟩
    · rintro ⟨⟨first, others⟩, bound, nested, comma, more, rfl, kind, mid, reading, later⟩
      have accepted : (repeatedFrom (nextArgument inner) (count + 1)).Accepts stop mid args
          (paren :: rest) := (ih (by omega)).mpr ⟨others, by omega, by omega, later⟩
      refine ⟨mid, ⟨comma, more, rfl, kind, by omega, ?_⟩, accepted⟩
      refine (parses _ _ _).mpr ⟨⟨first, Nat.zero_le _, by omega, reading⟩, ?_⟩
      -- What follows is the comma of the next argument, or the closing parenthesis.
      cases args with
      | nil =>
        obtain rfl := reads_nil.mp later
        exact closed_cons (.inl closing)
      | cons next others =>
        obtain ⟨t, _, rfl, kind, _⟩ := reads_cons.mp later
        exact closed_cons (.inr (.inl kind))

/-- The closing parenthesis is left to the caller. More than 255 arguments are a complaint, so they are not
accepted. -/
theorem accepts_arguments (closing : paren.kind = .rightParen) :
    (arguments inner).Accepts stop tokens args (paren :: rest) ↔
      Expr.CanonicalAll args ∧ args.length ≤ 255 ∧ Expr.nestingAll args ≤ room ∧
        Reads (Expr.yieldArguments args) tokens (paren :: rest) := by
  unfold arguments
  simp only [accepts_bind, accepts_check]
  constructor
  · rintro ⟨_, _, ⟨rfl, rfl⟩, after⟩
    split at after
    · obtain ⟨rfl, rfl⟩ := accepts_pure.mp after
      simp [Expr.CanonicalAll, Expr.nestingAll, Expr.yieldArguments]
    · simp only [accepts_bind, accepts_pure, repeated_eq] at after
      obtain ⟨first, mid, accepted, others, _, later, rfl, rfl⟩ := after
      have fits := (parses _ _ _).mp accepted
      have shallow := fits.shallow
      obtain ⟨canonical, bound, nested, reading⟩ :=
        (accepts_furtherArguments orderly parses closing (by omega)).mp later
      simp only [Expr.CanonicalAll, Expr.nestingAll, Expr.yieldArguments, reads_append,
        List.length_cons]
      exact ⟨⟨fits.canonical, canonical⟩, by omega, by omega, mid, fits.reading, reading⟩
  · rintro ⟨canonical, bound, nested, reading⟩
    refine ⟨_, _, ⟨rfl, rfl⟩, ?_⟩
    cases args with
    | nil =>
      obtain rfl := reads_nil.mp reading
      simp [closing]
    | cons first others =>
      simp only [Expr.CanonicalAll, Expr.nestingAll, Expr.yieldArguments, reads_append,
        List.length_cons] at canonical nested bound reading
      obtain ⟨mid, reading, later⟩ := reading
      have fits : Fits 0 room first tokens mid := by
        refine ⟨⟨canonical.1, Nat.zero_le _, by omega, reading⟩, ?_⟩
        cases others with
        | nil =>
          obtain rfl := reads_nil.mp later
          exact closed_cons (.inl closing)
        | cons next others =>
          obtain ⟨t, _, rfl, kind, _⟩ := reads_cons.mp later
          exact closed_cons (.inr (.inl kind))
      obtain ⟨t, more, rfl, starts⟩ := fits.start
      have goes : (t.kind == .rightParen) = false := by
        rw [beq_eq_false_iff_ne]
        intro kind
        simp [kind, TokenKind.startsExpression] at starts
      simp only [List.headD_cons, goes, Bool.false_eq_true, if_false, accepts_bind, accepts_pure,
        repeated_eq]
      refine ⟨first, mid, (parses _ _ _).mpr fits, others, paren :: rest, ?_, rfl, rfl⟩
      exact (accepts_furtherArguments orderly parses closing (by omega)).mpr
        ⟨canonical.2, by omega, by omega, later⟩

end Arguments

section Ended

variable {stop : Token} (ended : stop.kind = .eof) {inner operand value : Parser Expr} {room : Nat}
include ended

/-- A primary expression ends by itself, so nothing is said about what follows it. -/
theorem accepts_primary (inner_parses : Parses inner stop 0 room) :
    (primary inner).Accepts stop tokens e rest ↔
      e.Canonical ∧ isPrimary e = true ∧ e.nesting < room + 1 ∧ Reads e.yield tokens rest := by
  constructor
  · unfold primary
    simp only [accepts_bind, accepts_peek]
    rintro ⟨token, _, ⟨rfl, rfl⟩, after⟩
    cases tokens with
    | nil =>
      simp only [List.headD_nil, ended] at after
      exact absurd after not_accepts_fail
    | cons t tokens =>
      simp only [List.headD_cons] at after
      split at after
      case h_7 kind =>
        simp only [accepts_bind, accepts_advance, accepts_expect, accepts_pure, List.tail_cons] at after
        obtain ⟨_, _, rfl, e, _, inside, paren, _, ⟨rfl, closing⟩, rfl, rfl⟩ := after
        have fits := (inner_parses _ _ _).mp inside
        have shallow := fits.shallow
        refine ⟨fits.canonical, rfl, by simpa [Expr.nesting] using shallow, ?_⟩
        simp only [Expr.yield, reads_cons, reads_append, reads_nil]
        exact ⟨t, _, rfl, kind, _, fits.reading, paren, _, rfl, closing, rfl⟩
      case h_8 => exact absurd after not_accepts_fail
      all_goals
        rename_i kind
        simp only [accepts_bind, accepts_advance, accepts_pure, List.tail_cons] at after
        obtain ⟨_, _, rfl, rfl, rfl⟩ := after
        simp [Expr.Canonical, Token.constant?, kind, isPrimary, Expr.nesting, Expr.yield, Leaf.Matches]
  · rintro ⟨canonical, primary, shallow, reading⟩
    unfold Parser.primary
    simp only [accepts_bind, accepts_peek]
    cases e with
    | literal value token =>
      simp only [Expr.yield, reads_cons, reads_nil, Leaf.Matches] at reading
      obtain ⟨t, _, rfl, rfl, rfl⟩ := reading
      refine ⟨_, _, ⟨rfl, rfl⟩, ?_⟩
      simp only [Expr.Canonical, Token.constant?] at canonical
      split at canonical
      all_goals
        rename_i kind
        simp_all
    | var name =>
      simp only [Expr.yield, reads_cons, reads_nil, Leaf.Matches] at reading
      obtain ⟨t, _, rfl, rfl, rfl⟩ := reading
      refine ⟨_, _, ⟨rfl, rfl⟩, ?_⟩
      have kind : name.kind = .identifier := canonical
      simp [kind]
    | grouping inner =>
      simp only [Expr.yield, reads_cons, reads_append, reads_nil, Leaf.Matches] at reading
      obtain ⟨t, more, rfl, opening, _, inside, paren, left, rfl, closing, rfl⟩ := reading
      refine ⟨t, _, ⟨rfl, rfl⟩, ?_⟩
      have fits : Fits 0 room inner more (paren :: left) := by
        refine ⟨⟨canonical, Nat.zero_le _, by simpa [Expr.nesting] using shallow, inside⟩, ?_⟩
        exact closed_cons (.inl closing)
      simp only [opening, accepts_bind, accepts_advance, accepts_expect, accepts_pure]
      exact ⟨(), _, rfl, inner, _, (inner_parses _ _ _).mpr fits, paren, _, ⟨rfl, closing⟩, rfl, rfl⟩
    | missing | unary | binary | assign | call => contradiction

omit ended in
theorem accepts_callSuffix_none :
    (callSuffix inner).Accepts stop tokens none rest ↔
      tokens = rest ∧ Avoids [.leftParen] tokens := by
  unfold callSuffix
  rw [accepts_accept?_bind]
  constructor
  · rintro (⟨avoids, after⟩ | ⟨paren, more, rfl, _, after⟩)
    · exact ⟨(accepts_pure.mp after).2, avoids⟩
    · simp at after
  · rintro ⟨rfl, avoids⟩
    exact .inl ⟨avoids, by simp⟩

omit ended in
theorem accepts_callSuffix_some :
    (callSuffix inner).Accepts stop tokens (some (paren, args)) rest ↔
      ∃ t more, tokens = t :: more ∧ t.kind = .leftParen ∧ paren.kind = .rightParen ∧
        (arguments inner).Accepts stop more args (paren :: rest) := by
  unfold callSuffix
  rw [accepts_accept?_bind]
  constructor
  · rintro (⟨_, after⟩ | ⟨t, more, rfl, member, after⟩)
    · simp at after
    · simp only [accepts_bind, accepts_expect, accepts_pure, Option.some.injEq, Prod.mk.injEq] at after
      obtain ⟨_, _, accepted, _, _, ⟨rfl, closing⟩, ⟨rfl, rfl⟩, rfl⟩ := after
      exact ⟨t, more, rfl, by simpa using member, closing, accepted⟩
  · rintro ⟨t, more, rfl, kind, closing, accepted⟩
    refine .inr ⟨t, more, rfl, by simp [kind], ?_⟩
    simp only [accepts_bind, accepts_expect, accepts_pure]
    exact ⟨args, _, accepted, paren, rest, ⟨rfl, closing⟩, rfl, rfl⟩

omit ended in
theorem Stands.call (orderly : Orderly inner) (parses : Parses inner stop 0 room)
    (callee_stands : Stands 6 (room + 1) callee tokens mid)
    (stepped : (callSuffix inner).Accepts stop mid (some (paren, args)) rest) :
    Stands 6 (room + 1) (.call callee paren args) tokens rest := by
  obtain ⟨t, more, rfl, kind, closing, accepted⟩ := accepts_callSuffix_some.mp stepped
  obtain ⟨canonical, few, nested, reading⟩ := (accepts_arguments orderly parses closing).mp accepted
  refine ⟨⟨callee_stands.tight, closing, few, callee_stands.canonical, canonical⟩, Nat.le_refl _, ?_, ?_⟩
  · exact Nat.max_lt.mpr ⟨callee_stands.shallow, Nat.lt_succ_of_le nested⟩
  · simp only [Expr.yield, reads_append, reads_cons, reads_nil, Leaf.Matches]
    exact ⟨_, callee_stands.reading, t, more, rfl, kind, _, reading, paren, rest, rfl, rfl, rfl⟩

/-- A called expression as the parser finds it: a primary expression, and then the argument lists one
by one. What the parser finds after them is `more`. -/
theorem call_found (orderly : Orderly inner) (parses : Parses inner stop 0 room)
    (stands : Stands 6 (room + 1) e tokens mid)
    (later : (repeated fun _ => callSuffix inner).Accepts stop mid more rest) :
    ∃ first next suffixes, (primary inner).Accepts stop tokens first next ∧
      (repeated fun _ => callSuffix inner).Accepts stop next (suffixes ++ more) rest ∧
      suffixes.foldl (fun callee (paren, args) => Expr.call callee paren args) first = e := by
  obtain ⟨canonical, tight, shallow, reading⟩ := stands
  induction e using Expr.inductionOn generalizing tokens mid more with
  | literal | var | grouping =>
    exact ⟨_, mid, [], (accepts_primary ended parses).mpr ⟨canonical, rfl, shallow, reading⟩, later, rfl⟩
  | call callee paren args ih =>
    obtain ⟨callee_tight, closing, few, callee_canonical, args_canonical⟩ := canonical
    obtain ⟨callee_shallow, args_shallow⟩ := Nat.max_lt.mp shallow
    simp only [Expr.yield, reads_append, reads_cons, reads_nil, Leaf.Matches] at reading
    obtain ⟨_, before, t, inside, rfl, kind, _, arguments, _, left, rfl, rfl, rfl⟩ := reading
    have accepted := (accepts_arguments orderly parses closing).mpr
      ⟨args_canonical, few, Nat.lt_succ_iff.mp args_shallow, arguments⟩
    have suffix := accepts_callSuffix_some.mpr ⟨t, inside, rfl, kind, closing, accepted⟩
    obtain ⟨first, next, suffixes, start, found, folded⟩ := ih
      ((accepts_repeated_cons (steady_callSuffix orderly)).mpr ⟨_, suffix, later⟩)
      callee_canonical callee_tight callee_shallow before
    refine ⟨first, next, suffixes ++ [(paren, args)], start, ?_, ?_⟩
    · rwa [List.append_assoc]
    · rw [List.foldl_append, folded]
      rfl
  | missing => exact canonical.elim
  | unary | assign => simp [Expr.rank] at tight
  | binary left operator right =>
    have loose := operator.kind.precedence_le
    simp only [Expr.rank] at tight
    omega

/-- Soundness: what is called so far stands there, suffix by suffix. Completeness is `call_found`. -/
theorem parses_call (orderly : Orderly inner) (parses : Parses inner stop 0 room) :
    Parses (call inner) stop 6 (room + 1) := by
  intro tokens e rest
  unfold call
  simp only [accepts_bind, accepts_pure]
  constructor
  · rintro ⟨first, mid, start, suffixes, _, found, rfl, rfl⟩
    obtain ⟨canonical, primary, shallow, reading⟩ := (accepts_primary ended parses).mp start
    have tight : 6 ≤ first.rank := by
      cases first <;> simp_all [isPrimary, Expr.rank]
    obtain ⟨last, stands, none⟩ := repeated_keeps (steady_callSuffix orderly)
      (fun callee (paren, args) => Expr.call callee paren args)
      (fun e mid => Stands 6 (room + 1) e tokens mid)
      (fun _ _ _ _ stands stepped => stands.call orderly parses stepped)
      ⟨canonical, tight, shallow, reading⟩ found
    obtain ⟨rfl, avoids⟩ := accepts_callSuffix_none.mp none
    refine ⟨stands, ?_⟩
    intro t head
    have loose := t.kind.precedence_le
    exact ⟨by simpa using avoids t head, by simp, .inr (by omega)⟩
  · rintro ⟨stands, closed⟩
    have none : (callSuffix inner).Accepts stop rest none rest :=
      accepts_callSuffix_none.mpr ⟨rfl, fun t head => by simpa using (closed t head).1⟩
    obtain ⟨first, next, suffixes, start, found, folded⟩ := call_found ended orderly parses stands
      ((accepts_repeated_nil (steady_callSuffix orderly)).mpr none)
    rw [List.append_nil] at found
    exact ⟨first, next, start, suffixes, rest, found, folded, rfl⟩

/-- No expression of this level begins with an operator, so the choice that the unary parser makes by its first
token loses none. -/
theorem call_avoids (parses : Parses inner stop 0 room)
    (accepted : (call inner).Accepts stop tokens e rest) : Avoids [.bang, .minus] tokens := by
  unfold call at accepted
  obtain ⟨first, mid, start, _⟩ := accepts_bind.mp accepted
  obtain ⟨canonical, primary, _, reading⟩ := (accepts_primary ended parses).mp start
  cases first with
  | literal value token =>
    obtain ⟨t, _, rfl, rfl, _⟩ := reads_cons.mp reading
    rw [avoids_cons]
    simp only [Expr.Canonical, Token.constant?] at canonical
    split at canonical <;> simp_all
  | var name =>
    obtain ⟨t, _, rfl, rfl, _⟩ := reads_cons.mp reading
    have kind : name.kind = .identifier := canonical
    simp [kind]
  | grouping inner =>
    obtain ⟨t, _, rfl, kind, _⟩ := reads_cons.mp reading
    simp [show t.kind = .leftParen from kind]
  | missing | unary | binary | assign | call => contradiction

/-- The operand has a level of room less, as each operator counts as one of nesting. -/
theorem parses_unary (orderly : Orderly inner) (parses : Parses inner stop 0 room)
    (operand_parses : Parses operand stop 5 room) :
    Parses (unary inner operand) stop 5 (room + 1) := by
  intro tokens e rest
  unfold unary
  rw [accepts_accept?_bind]
  constructor
  · rintro (⟨_, accepted⟩ | ⟨operator, more, rfl, member, after⟩)
    · obtain ⟨⟨canonical, tight, shallow, reading⟩, closed⟩ :=
        (parses_call ended orderly parses _ _ _).mp accepted
      refine ⟨⟨canonical, Nat.le_of_succ_le tight, shallow, reading⟩, ?_⟩
      intro t head
      have loose := t.kind.precedence_le
      exact ⟨(closed t head).1, by simp, .inr (by omega)⟩
    · simp only [accepts_bind, accepts_pure] at after
      obtain ⟨right, _, accepted, rfl, rfl⟩ := after
      obtain ⟨⟨canonical, tight, shallow, reading⟩, closed⟩ := (operand_parses _ _ _).mp accepted
      have kind : operator.kind = .bang ∨ operator.kind = .minus := by simpa using member
      refine ⟨⟨⟨kind, tight, canonical⟩, Nat.le_refl _, Nat.succ_lt_succ shallow, ?_⟩, closed⟩
      simp only [Expr.yield, reads_cons]
      exact ⟨operator, more, rfl, rfl, reading⟩
  · rintro ⟨⟨canonical, tight, shallow, reading⟩, closed⟩
    by_cases called : 6 ≤ e.rank
    · have tighter : Closed 6 rest := by
        intro t head
        have loose := t.kind.precedence_le
        exact ⟨(closed t head).1, by simp, .inr (by omega)⟩
      have accepted := (parses_call ended orderly parses _ _ _).mpr
        ⟨⟨canonical, called, shallow, reading⟩, tighter⟩
      exact .inl ⟨call_avoids ended parses accepted, accepted⟩
    · cases e with
      | unary operator right =>
        obtain ⟨kind, right_tight, right_canonical⟩ := canonical
        simp only [Expr.yield, reads_cons] at reading
        obtain ⟨t, more, rfl, rfl, reading⟩ := reading
        refine .inr ⟨operator, more, rfl, by simpa using kind, ?_⟩
        simp only [accepts_bind, accepts_pure]
        exact ⟨right, rest, (operand_parses _ _ _).mpr
          ⟨⟨right_canonical, right_tight, Nat.lt_of_succ_lt_succ shallow, reading⟩, closed⟩, rfl, rfl⟩
      | binary left operator right =>
        have loose := operator.kind.precedence_le
        simp only [Expr.rank] at tight
        omega
      | missing => exact canonical.elim
      | assign => simp [Expr.rank] at tight
      | literal | grouping | var | call => simp [Expr.rank] at called

end Ended

section Chains

variable {operand : Parser Expr} {stop : Token} {level bound : Nat} {kinds : List TokenKind}

theorem accepts_operation_none :
    (operation operand kinds).Accepts stop tokens none rest ↔ tokens = rest ∧ Avoids kinds tokens := by
  unfold operation
  rw [accepts_accept?_bind]
  constructor
  · rintro (⟨avoids, after⟩ | ⟨operator, more, rfl, _, after⟩)
    · exact ⟨(accepts_pure.mp after).2, avoids⟩
    · simp at after
  · rintro ⟨rfl, avoids⟩
    exact .inl ⟨avoids, by simp⟩

theorem accepts_operation_some :
    (operation operand kinds).Accepts stop tokens (some (operator, right)) rest ↔
      ∃ more, tokens = operator :: more ∧ operator.kind ∈ kinds ∧
        operand.Accepts stop more right rest := by
  unfold operation
  rw [accepts_accept?_bind]
  constructor
  · rintro (⟨_, after⟩ | ⟨t, more, rfl, member, after⟩)
    · simp at after
    · simp only [accepts_bind, accepts_pure, Option.some.injEq, Prod.mk.injEq] at after
      obtain ⟨_, _, accepted, ⟨rfl, rfl⟩, rfl⟩ := after
      exact ⟨more, rfl, member, accepted⟩
  · rintro ⟨more, rfl, member, accepted⟩
    exact .inr ⟨operator, more, rfl, member, by simpa using accepted⟩

variable (positive : 0 < level) (loose : level < 5)
  (member : ∀ kind : TokenKind, kind ∈ kinds ↔ kind.precedence = level)
  (orderly : Orderly operand) (parses : Parses operand stop (level + 1) bound)
include positive member

/-- What ends an expression of the level is what ends its operands and is no operator between them. -/
theorem closed_level : Closed level tokens ↔ Closed (level + 1) tokens ∧ Avoids kinds tokens := by
  cases tokens with
  | nil => simp [Closed]
  | cons t tokens =>
    simp only [Closed, List.head?_cons, Option.mem_some_iff, forall_eq', avoids_cons, member]
    constructor
    · rintro ⟨paren, _, below⟩
      exact ⟨⟨paren, by simp, by omega⟩, by omega⟩
    · rintro ⟨⟨paren, _, below⟩, differs⟩
      exact ⟨paren, by omega, by omega⟩

/-- An operator of the level does not continue an operand. -/
theorem closed_operator (operator_member : operator.kind ∈ kinds) :
    Closed (level + 1) (operator :: tokens) := by
  have kind := (member _).mp operator_member
  intro t head
  obtain rfl : operator = t := by simpa using head
  refine ⟨?_, by simp, .inr (by omega)⟩
  intro paren
  simp [paren, TokenKind.precedence] at kind
  omega

include parses

/-- The left operand has the same level and the right one the next: this is how operators group from the left.
-/
theorem Stands.binary (left_stands : Stands level bound left tokens mid)
    (stepped : (operation operand kinds).Accepts stop mid (some (operator, right)) rest) :
    Stands level bound (.binary left operator right) tokens rest ∧ Closed (level + 1) rest := by
  obtain ⟨more, rfl, operator_member, accepted⟩ := accepts_operation_some.mp stepped
  obtain ⟨⟨canonical, tight, shallow, reading⟩, closed⟩ := (parses _ _ _).mp accepted
  have kind := (member _).mp operator_member
  refine ⟨⟨⟨?_, ?_, ?_, left_stands.canonical, canonical⟩, ?_, ?_, ?_⟩, closed⟩
  · rwa [kind]
  · rw [kind]
    exact left_stands.tight
  · rw [kind]
    exact tight
  · exact Nat.le_of_eq kind.symm
  · exact Nat.max_lt.mpr ⟨left_stands.shallow, shallow⟩
  · simp only [Expr.yield, reads_append, reads_cons]
    exact ⟨_, left_stands.reading, operator, more, rfl, rfl, reading⟩

include loose orderly

/-- An expression of the level as the parser finds it: a first operand, and then the operators with
their operands one by one. What the parser finds after them is `later`. -/
theorem chain_found (stands : Stands level bound e tokens mid) (closed : Closed (level + 1) mid)
    (later : (repeated fun _ => operation operand kinds).Accepts stop mid more rest) :
    ∃ first next items, operand.Accepts stop tokens first next ∧
      (repeated fun _ => operation operand kinds).Accepts stop next (items ++ more) rest ∧
      items.foldl (fun left (operator, right) => Expr.binary left operator right) first = e := by
  obtain ⟨canonical, tight, shallow, reading⟩ := stands
  induction e using Expr.inductionOn generalizing tokens mid more with
  | binary left operator right ih =>
    by_cases tighter : level < operator.kind.precedence
    · exact ⟨_, mid, [], (parses _ _ _).mpr ⟨⟨canonical, tighter, shallow, reading⟩, closed⟩, later, rfl⟩
    · obtain ⟨_, left_tight, right_tight, left_canonical, right_canonical⟩ := canonical
      obtain ⟨left_shallow, right_shallow⟩ := Nat.max_lt.mp shallow
      have kind : operator.kind.precedence = level := Nat.le_antisymm (Nat.le_of_not_lt tighter) tight
      rw [kind] at left_tight right_tight
      simp only [Expr.yield, reads_append, reads_cons] at reading
      obtain ⟨_, before, t, after, rfl, rfl, reading⟩ := reading
      have operator_member := (member _).mpr kind
      have accepted := (parses _ _ _).mpr
        ⟨⟨right_canonical, right_tight, right_shallow, reading⟩, closed⟩
      have stepped := accepts_operation_some.mpr ⟨after, rfl, operator_member, accepted⟩
      obtain ⟨first, next, items, start, found, folded⟩ := ih
        (closed_operator positive member operator_member)
        ((accepts_repeated_cons (steady_operation orderly kinds)).mpr ⟨mid, stepped, later⟩)
        left_canonical left_tight left_shallow before
      refine ⟨first, next, items ++ [(operator, right)], start, ?_, ?_⟩
      · rwa [List.append_assoc]
      · rw [List.foldl_append, folded]
        rfl
  | literal | var | grouping | call | unary =>
    refine ⟨_, mid, [], (parses _ _ _).mpr ⟨⟨canonical, ?_, shallow, reading⟩, closed⟩, later, rfl⟩
    simp only [Expr.rank]
    omega
  | missing => exact canonical.elim
  | assign =>
    simp only [Expr.rank] at tight
    omega

/-- The four levels of binary operators are this one chain, each with the operators of its precedence. -/
theorem parses_chain : Parses (chain operand kinds) stop level bound := by
  intro tokens e rest
  unfold chain
  simp only [accepts_bind, accepts_pure]
  constructor
  · rintro ⟨first, mid, start, items, _, found, rfl, rfl⟩
    obtain ⟨⟨canonical, tight, shallow, reading⟩, closed⟩ := (parses _ _ _).mp start
    obtain ⟨last, ⟨stands, closed⟩, none⟩ := repeated_keeps (steady_operation orderly kinds)
      (fun left (operator, right) => Expr.binary left operator right)
      (fun e mid => Stands level bound e tokens mid ∧ Closed (level + 1) mid)
      (fun _ _ _ _ stands stepped => stands.1.binary positive member parses stepped)
      ⟨⟨canonical, Nat.le_of_succ_le tight, shallow, reading⟩, closed⟩ found
    obtain ⟨rfl, avoids⟩ := accepts_operation_none.mp none
    exact ⟨stands, (closed_level positive member).mpr ⟨closed, avoids⟩⟩
  · rintro ⟨stands, closed⟩
    obtain ⟨closed, avoids⟩ := (closed_level positive member).mp closed
    have none : (operation operand kinds).Accepts stop rest none rest :=
      accepts_operation_none.mpr ⟨rfl, avoids⟩
    obtain ⟨first, next, items, start, found, folded⟩ := chain_found positive loose member orderly
      parses stands closed ((accepts_repeated_nil (steady_operation orderly kinds)).mpr none)
    rw [List.append_nil] at found
    exact ⟨first, next, start, items, rest, found, folded, rfl⟩

end Chains

theorem mem_factorKinds (kind : TokenKind) : kind ∈ factorKinds ↔ kind.precedence = 4 := by
  cases kind <;> simp [factorKinds, TokenKind.precedence]

theorem mem_termKinds (kind : TokenKind) : kind ∈ termKinds ↔ kind.precedence = 3 := by
  cases kind <;> simp [termKinds, TokenKind.precedence]

theorem mem_comparisonKinds (kind : TokenKind) : kind ∈ comparisonKinds ↔ kind.precedence = 2 := by
  cases kind <;> simp [comparisonKinds, TokenKind.precedence]

theorem mem_equalityKinds (kind : TokenKind) : kind ∈ equalityKinds ↔ kind.precedence = 1 := by
  cases kind <;> simp [equalityKinds, TokenKind.precedence]

theorem parses_equality (orderly : Orderly operand) (parses : Parses operand stop 5 bound) :
    Parses (equality operand) stop 1 bound := by
  have factor_parses : Parses (factor operand) stop 4 bound :=
    parses_chain (by decide) (by decide) mem_factorKinds orderly parses
  have factor_orderly : Orderly (factor operand) := orderly_chain orderly _
  have term_parses : Parses (term operand) stop 3 bound :=
    parses_chain (by decide) (by decide) mem_termKinds factor_orderly factor_parses
  have term_orderly : Orderly (term operand) := orderly_chain factor_orderly _
  have comparison_parses : Parses (comparison operand) stop 2 bound :=
    parses_chain (by decide) (by decide) mem_comparisonKinds term_orderly term_parses
  exact parses_chain (by decide) (by decide) mem_equalityKinds (orderly_chain term_orderly _)
    comparison_parses

/-- The target is parsed as an expression, and only an `=` after it tells that it is a target. Anything but a
name is then a complaint. -/
theorem parses_assignment (orderly : Orderly operand) (parses : Parses operand stop 5 (room + 1))
    (value_parses : Parses value stop 0 room) :
    Parses (assignment operand value) stop 0 (room + 1) := by
  have target_parses := parses_equality orderly parses
  intro tokens e rest
  unfold assignment
  rw [accepts_bind]
  constructor
  · rintro ⟨target, mid, accepted, after⟩
    obtain ⟨⟨canonical, tight, shallow, reading⟩, closed⟩ := (target_parses _ _ _).mp accepted
    rw [accepts_accept?_bind] at after
    rcases after with ⟨avoids, after⟩ | ⟨equals, more, rfl, member, after⟩
    · obtain ⟨rfl, rfl⟩ := accepts_pure.mp after
      exact ⟨⟨canonical, Nat.zero_le _, shallow, reading⟩, closed_zero.mpr ⟨closed, avoids⟩⟩
    · obtain ⟨assigned, last, value_accepted, after⟩ := accepts_bind.mp after
      have kind : equals.kind = .equal := by simpa using member
      cases target with
      | var name =>
        obtain ⟨rfl, rfl⟩ := accepts_pure.mp after
        obtain ⟨⟨value_canonical, _, value_shallow, value_reading⟩, value_closed⟩ :=
          (value_parses _ _ _).mp value_accepted
        refine ⟨⟨⟨canonical, value_canonical⟩, Nat.zero_le _, Nat.succ_lt_succ value_shallow, ?_⟩,
          value_closed⟩
        obtain ⟨t, _, rfl, rfl, nothing⟩ := reads_cons.mp reading
        obtain rfl := reads_nil.mp nothing
        simp only [Expr.yield, reads_cons]
        exact ⟨name, _, rfl, rfl, equals, more, rfl, kind, value_reading⟩
      -- Anything else on the left has been complained about.
      | missing | literal | grouping | unary | binary | assign | call => simp at after
  · rintro ⟨⟨canonical, tight, shallow, reading⟩, closed⟩
    by_cases assigns : 1 ≤ e.rank
    · obtain ⟨closed, avoids⟩ := closed_zero.mp closed
      refine ⟨e, rest, (target_parses _ _ _).mpr ⟨⟨canonical, assigns, shallow, reading⟩, closed⟩, ?_⟩
      exact accepts_accept?_bind.mpr (.inl ⟨avoids, by simp⟩)
    · cases e with
      | assign name value =>
        simp only [Expr.yield, reads_cons] at reading
        obtain ⟨t, _, rfl, rfl, equals, more, rfl, kind, reading⟩ := reading
        have target : Fits 1 (room + 1) (.var name) (name :: equals :: more) (equals :: more) := by
          refine ⟨⟨canonical.1, by simp [Expr.rank], Nat.succ_pos _, by simp [Expr.yield, Leaf.Matches]⟩, ?_⟩
          intro t head
          obtain rfl : equals = t := by simpa using head
          simp [show equals.kind = .equal from kind, TokenKind.precedence]
        have assigned : Fits 0 room value more rest :=
          ⟨⟨canonical.2, Nat.zero_le _, Nat.lt_of_succ_lt_succ shallow, reading⟩, closed⟩
        refine ⟨_, _, (target_parses _ _ _).mpr target, accepts_accept?_bind.mpr (.inr ?_)⟩
        refine ⟨equals, more, rfl, by simp [show equals.kind = .equal from kind], ?_⟩
        exact accepts_bind.mpr ⟨value, rest, (value_parses _ _ _).mpr assigned, by simp⟩
      | binary left operator right =>
        have positive := canonical.1
        simp only [Expr.rank] at assigns
        omega
      | missing => exact canonical.elim
      | literal | grouping | unary | var | call => simp [Expr.rank] at assigns

/-- Both nesting levels accept exactly the canonical expressions that nest no deeper than there is
room. -/
theorem parses_nested (ended : stop.kind = .eof) (room : Nat) :
    Parses (nested .assignment room) stop 0 room ∧
      Parses (nested .unary room) stop 5 (room + 1) := by
  induction room with
  | zero => exact ⟨parses_tooDeep, parses_unary ended orderly_tooDeep parses_tooDeep parses_tooDeep⟩
  | succ room ih =>
    have unary_orderly := orderly_nested .unary room
    have inner := parses_assignment unary_orderly ih.2 ih.1
    have inner_orderly := orderly_assignment unary_orderly (orderly_nested .assignment room)
    exact ⟨inner, parses_unary ended inner_orderly inner ih.2⟩

theorem parses_expression (ended : stop.kind = .eof) (room : Nat) :
    Parses (expression room) stop 0 room :=
  (parses_nested ended room).1

end Parser
end LoxLang

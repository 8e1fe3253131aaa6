import LoxLang.Proofs.Recovery

/-! Placeholders and complaints. A `bad` statement stands only where a declaration of the program stands,
never inside another statement. Every complaint of the parser belongs to one of them: the complaints of a
program are those made in the runs behind its `bad` statements, one run after the other, and each of these
statements keeps the complaint that its run gave up with, or else the first one. -/
namespace LoxLang

namespace Stmt

def isBad : Stmt → Bool
  | bad .. => true
  | _ => false

/-- The first statement is a part of the second, at any depth. -/
inductive Inside : Stmt → Stmt → Prop where
  | block : s ∈ body → Inside s (.block brace body)
  | ifThen : Inside thenBranch (.ifThen condition thenBranch)
  | thenBranch : Inside thenBranch (.ifElse condition thenBranch elseBranch)
  | elseBranch : Inside elseBranch (.ifElse condition thenBranch elseBranch)
  | loop : Inside body (.loop condition body)
  | trans : Inside part whole → Inside whole outer → Inside part outer

theorem Canonical.not_bad {s : Stmt} (canonical : s.Canonical declares) : s.isBad = false := by
  cases s with
  | bad => exact canonical.elim
  | _ => rfl

theorem Canonical.inside {part whole : Stmt} (within : part.Inside whole) :
    ∀ {declares}, whole.Canonical declares → ∃ place, part.Canonical place := by
  induction within with
  | block member =>
    intro declares canonical
    exact ⟨true, canonicalAll_iff.mp canonical.2 _ member⟩
  | ifThen | loop =>
    intro declares canonical
    exact ⟨false, canonical.2⟩
  | thenBranch =>
    intro declares canonical
    exact ⟨false, canonical.2.1⟩
  | elseBranch =>
    intro declares canonical
    exact ⟨false, canonical.2.2.2⟩
  | trans _ _ part_ih whole_ih =>
    intro declares canonical
    obtain ⟨_, between⟩ := whole_ih canonical
    exact part_ih between

theorem Inside.whole_not_bad {part whole : Stmt} (within : part.Inside whole) : whole.isBad = false := by
  induction within with
  | block | ifThen | thenBranch | elseBranch | loop => rfl
  | trans _ _ _ ih => exact ih

end Stmt

/-- A place in a program: the statement that stands there, and the answer of the run behind it, before
anything is made of its complaints. -/
structure Slot where
  stmt : Stmt
  run : Reply Stmt

namespace Slot

/-- The statement is a placeholder for its run. A run that gave up leaves the complaint that it gave up with,
which is the last one, and a run that went on leaves the first one. -/
inductive Blames : Slot → Prop where
  | unwound {reply : Reply Stmt} (gaveUp : reply.outcome = .error e) (last : reply.errors.getLast? = some e) :
      Blames { stmt := .bad start e.diagnostic, run := reply }
  | voided {reply : Reply Stmt} (wentOn : reply.outcome = .ok s) (first : reply.errors.head? = some e) :
      Blames { stmt := .bad start e.diagnostic, run := reply }

theorem Blames.bad {slot : Slot} (blames : slot.Blames) : slot.stmt.isBad = true := by
  cases blames <;> rfl

theorem Blames.complains {slot : Slot} (blames : slot.Blames) : slot.run.errors ≠ [] := by
  cases blames with
  | unwound _ last =>
    intro none
    rw [show _ = [] from none] at last
    cases last
  | voided _ first =>
    intro none
    rw [show _ = [] from none] at first
    cases first

end Slot

namespace Parser

/-- The places of a program, from `tokens` on: each run begins with what the declaration before it has
left. -/
inductive Fills (limit : Nat) (stop : Token) : List Token → List Slot → Prop where
  | ended : Fills limit stop [] []
  | next (nonempty : tokens ≠ [])
      (declared : (declaration (expression limit) (statement limit) stop tokens).outcome = .ok s)
      (others : Fills limit stop (declaration (expression limit) (statement limit) stop tokens).rest later) :
      Fills limit stop tokens
        ({ stmt := s, run := attempt (expression limit) (statement limit) stop tokens } :: later)

theorem bind_errors {p : Parser α} {f : α → Parser β} (done : (p stop tokens).outcome = .ok a) :
    ((p >>= f) stop tokens).errors =
      (p stop tokens).errors ++ (f a stop (p stop tokens).rest).errors := by
  change (Parser.bind p f stop tokens).errors = _
  simp only [Parser.bind, done]

/-- The complaints about the declarations are those about one and then those about what that leaves. -/
theorem repeated_declaration_errors {expr : Parser Expr} {stmt : Parser Stmt}
    (steady : Steady (fun _ => nextDeclaration close expr stmt) stop)
    (going : ¬ ((tokens.headD stop).kind = close ∨ (tokens.headD stop).kind = .eof))
    (declared : (declaration expr stmt stop tokens).outcome = .ok s)
    (others : (repeated (fun _ => nextDeclaration close expr stmt) stop
      (declaration expr stmt stop tokens).rest).outcome = .ok later) :
    (repeated (fun _ => nextDeclaration close expr stmt) stop tokens).errors =
      (declaration expr stmt stop tokens).errors ++
        (repeated (fun _ => nextDeclaration close expr stmt) stop
          (declaration expr stmt stop tokens).rest).errors := by
  have stepped : nextDeclaration close expr stmt stop tokens =
      { declaration expr stmt stop tokens with outcome := .ok (some s) } := by
    rw [nextDeclaration_goes going]
    change Parser.bind (declaration expr stmt) (fun s => pure (some s)) stop tokens = _
    simp only [Parser.bind, declared, pure, Parser.pure, List.append_nil]
  have started := congrArg Reply.outcome stepped
  rw [repeated_eq, repeatedFrom_round steady, repeatedFrom_const, round, bind_errors started, stepped]
  exact congrArg _ ((bind_errors others).trans (List.append_nil _))

section Declarations

variable {stop : Token} {limit : Nat} {tokens : List Token} (ended : stop.kind = .eof)
include ended

/-- A declaration without complaint is no placeholder, and any other is one for its run. -/
theorem declaration_slot (tokens : List Token)
    (declared : (declaration (expression limit) (statement limit) stop tokens).outcome = .ok s) :
    s.isBad = false ∧ (attempt (expression limit) (statement limit) stop tokens).errors = [] ∨
      Slot.Blames { stmt := s, run := attempt (expression limit) (statement limit) stop tokens } := by
  rcases declaration_cases (expression limit) (statement limit) stop tokens with
    ⟨a, accepted, same⟩ | ⟨a, e, es, done, complaints, same⟩ | ⟨e, failed, same⟩
  · left
    rw [same, accepted] at declared
    obtain rfl := Except.ok.inj declared
    have fits := attempt_fits ended (parses_expression ended limit) (parses_statement ended limit) accepted
    exact ⟨fits.canonical.not_bad, congrArg Reply.errors accepted⟩
  · right
    rw [same] at declared
    obtain rfl := Except.ok.inj declared
    exact .voided done (by rw [complaints, List.head?_cons])
  · right
    have orderly := orderly_attempt (orderly_expression limit) (orderly_statement limit)
    rw [same] at declared
    obtain rfl := Except.ok.inj declared
    exact .unwound failed (orderly.blames stop tokens e failed)

/-- The declarations of a program are the first one and then those of what it leaves, and so are the
complaints. -/
theorem declarations_cons (bare : ∀ t ∈ tokens, t.kind ≠ .eof) (nonempty : tokens ≠ [])
    (done : (declarations limit stop tokens).outcome = .ok program) :
    ∃ s later, program = s :: later ∧
      (declaration (expression limit) (statement limit) stop tokens).outcome = .ok s ∧
      (declarations limit stop
        (declaration (expression limit) (statement limit) stop tokens).rest).outcome = .ok later ∧
      (declarations limit stop tokens).errors =
        (declaration (expression limit) (statement limit) stop tokens).errors ++
          (declarations limit stop
            (declaration (expression limit) (statement limit) stop tokens).rest).errors := by
  have going : ¬ ((tokens.headD stop).kind = .eof ∨ (tokens.headD stop).kind = .eof) := by
    obtain ⟨t, more, rfl⟩ := List.exists_cons_of_ne_nil nonempty
    simpa using bare t
  have steady := steady_declarations ended limit
  obtain ⟨s, later, rfl, declared, others⟩ := repeated_declaration steady going done
  refine ⟨s, later, rfl, declared, others, ?_⟩
  exact repeated_declaration_errors steady going declared others

/-- The declarations from `tokens` on fill places, and the complaints are those of their runs. -/
theorem declarations_fill (bare : ∀ t ∈ tokens, t.kind ≠ .eof)
    (done : (declarations limit stop tokens).outcome = .ok program) :
    ∃ slots, Fills limit stop tokens slots ∧ slots.map Slot.stmt = program ∧
      slots.flatMap (·.run.errors) = (declarations limit stop tokens).errors := by
  -- Each declaration takes a token, so there are fewer left for the ones after it.
  induction size : tokens.length using Nat.strongRecOn generalizing tokens program with
  | ind count ih =>
    by_cases empty : tokens = []
    · subst empty
      obtain rfl := declarations_nil ended done
      exact ⟨[], .ended, rfl, rfl⟩
    · obtain ⟨s, later, rfl, declared, others, complaints⟩ := declarations_cons ended bare empty done
      have leaves := (orderly_declaration (orderly_expression limit) (orderly_statement limit)).leaves stop tokens
      have costs := declaration_costs (orderly_expression limit) (orderly_statement limit)
        (consumes_statement ended limit) empty
      obtain ⟨slots, filled, statements, runs⟩ :=
        ih _ (size ▸ costs) (fun t member => bare t (leaves.subset member)) others rfl
      refine ⟨_, .next empty declared filled, ?_, ?_⟩
      · rw [List.map_cons, statements]
      · rw [List.flatMap_cons, runs, complaints]
        exact congrArg (· ++ _) (declaration_errors _ _ stop tokens).symm

theorem Fills.complains (filled : Fills limit stop tokens slots) :
    ∀ slot ∈ slots, slot.stmt.isBad = false ∧ slot.run.errors = [] ∨ slot.Blames := by
  induction filled with
  | ended => simp
  | next nonempty declared _ ih => exact List.forall_mem_cons.mpr ⟨declaration_slot ended _ declared, ih⟩

end Declarations
end Parser

/-- Where each place complains or holds no placeholder, the complaints are those at the placeholders. -/
theorem Slot.complaints_eq {slots : List Slot}
    (each : ∀ slot ∈ slots, slot.stmt.isBad = false ∧ slot.run.errors = [] ∨ slot.Blames) :
    (slots.filter (·.stmt.isBad)).flatMap (·.run.errors) = slots.flatMap (·.run.errors) := by
  induction slots with
  | nil => rfl
  | cons slot slots ih =>
    obtain ⟨here, later⟩ := List.forall_mem_cons.mp each
    rcases here with ⟨sound, quiet⟩ | blames
    · rw [List.filter_cons_of_neg (by simp [sound]), ih later, List.flatMap_cons, quiet, List.nil_append]
    · rw [List.filter_cons_of_pos (by simp [blames.bad]), List.flatMap_cons, List.flatMap_cons, ih later]

/-- A placeholder stands only at the top of a program. The complaints of the parser are those of the runs
behind the placeholders, each of which complained; and each placeholder keeps the complaint that its run gave
up with, which is its last one, or the first one if it did not give up. So there are complaints exactly where
there are placeholders. -/
theorem placeholders_match_complaints (limit : Nat) (tokens : List Token) :
    (∀ s ∈ (parseTokens limit tokens).1, ∀ part : Stmt, part.Inside s → part.isBad = false) ∧
    (∃ slots, Parser.Fills limit (stopToken tokens) (tokens.takeWhile (·.kind != .eof)) slots ∧
      slots.map Slot.stmt = (parseTokens limit tokens).1 ∧
      (slots.filter (·.stmt.isBad)).flatMap (·.run.errors) = (parseTokens limit tokens).2 ∧
      ∀ slot ∈ slots, slot.stmt.isBad = true → slot.run.errors ≠ [] ∧ slot.Blames) ∧
    ((parseTokens limit tokens).2 = [] ↔ ∀ s ∈ (parseTokens limit tokens).1, s.isBad = false) := by
  have ended := stopToken_kind tokens
  obtain ⟨program, done⟩ := Parser.lasting_declarations limit (stopToken tokens)
    (tokens.takeWhile (·.kind != .eof))
  obtain ⟨slots, filled, statements, complaints⟩ :=
    Parser.declarations_fill ended (bare_takeWhile tokens) done
  have parsed : parseTokens limit tokens = (program, slots.flatMap (·.run.errors)) := by
    rw [parseTokens, done, complaints]
    rfl
  have each := Parser.Fills.complains ended filled
  refine ⟨?_, ⟨slots, filled, ?_, ?_, ?_⟩, ?_⟩
  · intro s member part within
    rcases mem_parseTokens member with ⟨start, e, rfl⟩ | ⟨canonical, _⟩
    · cases within.whole_not_bad
    · obtain ⟨_, below⟩ := canonical.inside within
      exact below.not_bad
  · rw [parsed, statements]
  · rw [parsed, Slot.complaints_eq each]
  · intro slot member bad
    rcases each slot member with ⟨sound, _⟩ | blames
    · rw [sound] at bad
      contradiction
    · exact ⟨blames.complains, blames⟩
  · rw [parsed, ← statements]
    simp only [List.flatMap_eq_nil_iff, List.forall_mem_map]
    constructor
    · intro quiet slot member
      rcases each slot member with ⟨sound, _⟩ | blames
      · exact sound
      · exact absurd (quiet slot member) blames.complains
    · intro sound slot member
      rcases each slot member with ⟨_, quiet⟩ | blames
      · exact quiet
      · have bad := blames.bad
        rw [sound slot member] at bad
        contradiction

end LoxLang

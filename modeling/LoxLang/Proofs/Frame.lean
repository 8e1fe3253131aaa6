import LoxLang.Proofs.Restoration

/-! What a run leaves alone. Evaluating an expression prints nothing, binds no name and gives another value only
to names that it assigns to, and so does running a statement that is no declaration, however they end. A
declaration binds its own name besides, in the innermost scope, unless its initializer fails. -/
namespace LoxLang

namespace Expr

mutual

def targets : Expr → List String
  | missing | literal .. | var _ => []
  | grouping inner => inner.targets
  | unary _ right => right.targets
  | binary left _ right => left.targets ++ right.targets
  | assign name value => name.lexeme :: value.targets
  | call callee _ arguments => callee.targets ++ targetsAll arguments

def targetsAll : List Expr → List String
  | [] => []
  | e :: es => e.targets ++ targetsAll es

end

end Expr

namespace Stmt

mutual

def targets : Stmt → List String
  | missing | declare _ | bad .. => []
  | expression e | print e | define _ e => e.targets
  | block _ body => targetsAll body
  | ifThen condition thenBranch => condition.targets ++ thenBranch.targets
  | ifElse condition thenBranch elseBranch =>
    condition.targets ++ (thenBranch.targets ++ elseBranch.targets)
  | loop condition body => condition.targets ++ body.targets

def targetsAll : List Stmt → List String
  | [] => []
  | s :: ss => s.targets ++ targetsAll ss

end

theorem targets_subset {ss : List Stmt} (member : s ∈ ss) : s.targets ⊆ targetsAll ss := by
  induction ss with
  | nil => contradiction
  | cons first ss ih =>
    rw [targetsAll]
    rcases List.mem_cons.mp member with rfl | later
    · exact List.subset_append_left _ _
    · exact List.Subset.trans (ih later) (List.subset_append_right _ _)

mutual

/-- Declarations stand only where statements follow one another, never alone as a branch or as the body of a
loop. -/
def Placed : Stmt → Prop
  | missing | expression _ | print _ | declare _ | define .. | bad .. => True
  | block _ body => PlacedAll body
  | ifThen _ thenBranch => thenBranch.declared = [] ∧ thenBranch.Placed
  | ifElse _ thenBranch elseBranch =>
    (thenBranch.declared = [] ∧ thenBranch.Placed) ∧ elseBranch.declared = [] ∧ elseBranch.Placed
  | loop _ body => body.declared = [] ∧ body.Placed

def PlacedAll : List Stmt → Prop
  | [] => True
  | s :: ss => s.Placed ∧ PlacedAll ss

end

theorem placedAll_iff {ss : List Stmt} : PlacedAll ss ↔ ∀ s ∈ ss, s.Placed := by
  induction ss with
  | nil => simp [PlacedAll]
  | cons s ss ih => rw [PlacedAll, ih, List.forall_mem_cons]

end Stmt

/-- The scope binds the names that it did, and perhaps those of `added`. Only they and the `targets` may have
another value. -/
structure Scope.Framed (added targets : List String) (before after : Scope) : Prop where
  kept : ∀ name, before.binds name = true → after.binds name = true
  fresh : ∀ name, after.binds name = true → before.binds name = true ∨ name ∈ added
  same : ∀ name, name ∉ targets → name ∉ added → after.find? name = before.find? name

namespace Scope

variable {added targets : List String}

theorem framed_refl (scope : Scope) : scope.Framed added targets scope :=
  ⟨fun _ bound => bound, fun _ bound => .inl bound, fun _ _ _ => rfl⟩

theorem Framed.trans {first second third : Scope} (earlier : first.Framed added targets second)
    (later : second.Framed added targets third) : first.Framed added targets third where
  kept name bound := later.kept name (earlier.kept name bound)
  fresh name bound := (later.fresh name bound).elim (earlier.fresh name) .inr
  same name other new := (later.same name other new).trans (earlier.same name other new)

theorem Framed.mono {before after : Scope} (framed : before.Framed [] targets after) (added : List String) :
    before.Framed added targets after where
  kept := framed.kept
  fresh name bound := (framed.fresh name bound).imp_right fun none => absurd none List.not_mem_nil
  same name other _ := framed.same name other List.not_mem_nil

theorem framed_define (scope : Scope) (value : Value) (member : name ∈ added) :
    scope.Framed added targets (scope.set name value) where
  kept other bound := (binds_set ..).mpr (.inr bound)
  fresh other bound := by
    rcases (binds_set ..).mp bound with rfl | here
    · exact .inr member
    · exact .inl here
  same other _ new := by
    have differs : other ≠ name := fun same => new (same ▸ member)
    rw [find?_set, if_neg differs]

/-- The scope has to bind the name already, or a name would be added that `added` does not have. -/
theorem framed_assign {scope : Scope} (bound : scope.binds name = true) (value : Value)
    (member : name ∈ targets) : scope.Framed added targets (scope.set name value) where
  kept other here := (binds_set ..).mpr (.inr here)
  fresh other here := by
    rcases (binds_set ..).mp here with rfl | here
    · exact .inl bound
    · exact .inl here
  same other outside _ := by
    have differs : other ≠ name := fun same => outside (same ▸ member)
    rw [find?_set, if_neg differs]

end Scope

namespace Chain

def innermost (chain : Chain) : Scope := chain.locals.headD chain.globals

/-- The scopes around the innermost one, the global scope last. -/
def outer (chain : Chain) : List Scope := (chain.locals ++ [chain.globals]).tail

theorem scopes_eq (chain : Chain) : chain.locals ++ [chain.globals] = chain.innermost :: chain.outer := by
  obtain ⟨locals, globals⟩ := chain
  cases locals <;> rfl

/-- The same scopes are open. The innermost one may bind the names of `added` besides its own, and only names
among the `targets` have other values in the rest. -/
structure Framed (added targets : List String) (before after : Chain) : Prop where
  inner : before.innermost.Framed added targets after.innermost
  around : List.Forall₂ (Scope.Framed [] targets) before.outer after.outer

variable {added targets : List String}

theorem framed_refl (chain : Chain) : chain.Framed added targets chain :=
  ⟨Scope.framed_refl _, List.forall₂_same.mpr fun scope _ => Scope.framed_refl scope⟩

theorem Framed.trans {first second third : Chain} (earlier : first.Framed added targets second)
    (later : second.Framed added targets third) : first.Framed added targets third where
  inner := earlier.inner.trans later.inner
  around := Machine.scopes_trans earlier.around later.around fun _ _ _ => Scope.Framed.trans

theorem framed_define (chain : Chain) (value : Value) (member : name ∈ added) :
    chain.Framed added targets (chain.define name value) := by
  obtain ⟨locals, globals⟩ := chain
  cases locals with
  | nil => exact ⟨Scope.framed_define globals value member, .nil⟩
  | cons inner outer =>
    have around : List.Forall₂ (Scope.Framed [] targets) (outer ++ [globals]) (outer ++ [globals]) :=
      List.forall₂_same.mpr fun scope _ => Scope.framed_refl scope
    exact ⟨Scope.framed_define inner value member, around⟩

/-- Only one scope of the chain changes. The relation allows it to each of them, so it need not be said which.
-/
theorem scopes_assign {locals : List Scope} {globals : Scope} (member : name ∈ targets)
    (assigned : assign? { locals, globals } name value = some changed) :
    List.Forall₂ (Scope.Framed [] targets) (locals ++ [globals]) (changed.locals ++ [changed.globals]) := by
  have rest {scopes : List Scope} : List.Forall₂ (Scope.Framed [] targets) scopes scopes :=
    List.forall₂_same.mpr fun scope _ => Scope.framed_refl scope
  induction locals generalizing changed with
  | nil =>
    simp only [assign?, assignIn?] at assigned
    split at assigned
    · obtain rfl := Option.some.inj assigned
      exact .cons (Scope.framed_assign ‹_› value member) .nil
    · contradiction
  | cons inner outer ih =>
    rw [assign?_cons] at assigned
    split at assigned
    · obtain rfl := Option.some.inj assigned
      exact .cons (Scope.framed_assign ‹_› value member) rest
    · obtain ⟨further, found, rfl⟩ := Option.map_eq_some_iff.mp assigned
      exact .cons (Scope.framed_refl inner) (ih found)

theorem framed_assign {chain changed : Chain} (assigned : chain.assign? name value = some changed)
    (member : name ∈ targets) : chain.Framed added targets changed := by
  have scopes := scopes_assign member assigned
  rw [scopes_eq, scopes_eq] at scopes
  obtain ⟨inner, around⟩ := List.forall₂_cons.mp scopes
  exact ⟨inner.mono added, around⟩

/-- Closing a scope undoes opening it. -/
theorem Framed.closed {before after : Chain} (inside : before.push.Framed more targets after) :
    before.Framed added targets after.pop := by
  have around : List.Forall₂ (Scope.Framed [] targets) (before.locals ++ [before.globals]) after.outer :=
    inside.around
  obtain ⟨locals, globals⟩ := after
  cases locals with
  | nil =>
    rw [scopes_eq] at around
    contradiction
  | cons inner outer =>
    change List.Forall₂ _ _ (outer ++ [globals]) at around
    rw [scopes_eq before, scopes_eq ⟨outer, globals⟩] at around
    obtain ⟨inner, around⟩ := List.forall₂_cons.mp around
    exact ⟨inner.mono added, around⟩

end Chain

namespace Eval

variable {added targets : List String}

/-- Whatever the chain was, the part keeps it within the frame, however it ends. -/
def Frames (added targets : List String) (part : Eval α) : Prop :=
  ∀ start : Chain, Keeps (fun m => start.Framed added targets m.chain) part

theorem Frames.left {part : Eval α} (frames : Frames added targets part) (m : Machine) :
    m.chain.Framed added targets (Machine.left (part m)).chain := by
  have kept := frames m.chain m m.chain.framed_refl
  cases done : part m <;> rwa [done] at kept

theorem frames_pure (a : α) : Frames added targets (pure a) :=
  fun _ => meets_pure fun _ here => here

theorem frames_throw (stop : Stop) : Frames added targets (throw stop : Eval α) :=
  fun _ => meets_throw fun _ here => here

theorem Frames.bind {first : Eval α} {second : α → Eval β} (earlier : Frames added targets first)
    (later : ∀ a, Frames added targets (second a)) : Frames added targets (first >>= second) :=
  fun start => (earlier start).bind fun a => later a start

theorem Frames.map {part : Eval α} (f : α → β) (inside : Frames added targets part) :
    Frames added targets (f <$> part) := by
  intro start
  exact Meets.map (inside start)

theorem frames_nest {part : Eval α} (token : Token) (inside : Frames added targets part) :
    Frames added targets (nest token part) :=
  fun start => keeps_nest token (fun _ here => here) (fun _ here => here) (inside start)

theorem frames_assign (name : Token) (value : Value) (member : name.lexeme ∈ targets) :
    Frames added targets (assign name value) := by
  intro start
  refine meets_assign (fun m chain here assigned => ?_) fun _ here _ => here
  exact here.trans (Chain.framed_assign assigned member)

theorem frames_define (value : Value) (member : name ∈ added) : Frames added targets (define name value) :=
  fun _ m here => here.trans (m.chain.framed_define value member)

theorem frames_print (value : Value) : Frames added targets (print value) :=
  fun _ => meets_print (fun _ _ here _ => here) fun _ here _ => here

/-- Whatever is bound in a new scope is gone when that is closed. -/
theorem frames_inNewScope {part : Eval α} (inside : Frames more targets part) :
    Frames added targets (inNewScope part) := by
  intro start
  have closes (m : Machine) (here : start.Framed added targets m.chain) (m' : Machine)
      (left : m.opened.chain.Framed more targets m'.chain) : start.Framed added targets m'.closed.chain :=
    here.trans left.closed
  intro m here
  have left := inside.left m.opened
  cases done : part m.opened with
  | ok a m' =>
    rw [inNewScope_of_ok done]
    rw [done] at left
    exact closes m here m' left
  | error stop m' =>
    rw [inNewScope_of_error done]
    rw [done] at left
    exact closes m here m' left

theorem frames_whileTrue {test : Eval Bool} {body : Eval Unit} (tested : Frames added targets test)
    (again : Frames added targets body) (rounds : Nat) : Frames added targets (whileTrue test body rounds) := by
  intro start
  refine meets_whileTrue ?_ (again start) (fun _ here => here) rounds
  refine (tested start).mono (fun _ here => here) ?_ (fun _ _ stopped => stopped)
  intro b m done
  cases b <;> exact done

end Eval

section Trees

variable {added targets : List String}

/-- An expression declares nothing, so any names may be `added`. -/
theorem Expr.frames_evaluate {e : Expr} (within : e.targets ⊆ targets) : Eval.Frames added targets e.evaluate := by
  induction e using Expr.inductionOn with
  | missing => exact Eval.frames_throw _
  | literal value token => exact Eval.frames_pure value
  | grouping inner ih => exact Eval.frames_nest _ (ih within)
  | unary operator right ih =>
    refine Eval.frames_nest _ ((ih within).bind fun value => ?_)
    exact fun _ => Eval.keeps_ofOperator _ _
  | binary left operator right left_ih right_ih =>
    obtain ⟨left_within, right_within⟩ := List.append_subset.mp within
    refine (left_ih left_within).bind fun a => (right_ih right_within).bind fun b => ?_
    exact fun _ => Eval.keeps_ofOperator _ _
  | var name => exact fun _ => Eval.meets_get (fun _ _ here _ => here) fun _ here _ => here
  | assign name value ih =>
    obtain ⟨member, within⟩ := List.cons_subset.mp within
    refine Eval.frames_nest _ ((ih within).bind fun v => ?_)
    exact (Eval.frames_assign name v member).bind fun _ => Eval.frames_pure v
  | call callee paren arguments => exact Eval.frames_throw _

theorem Expr.output_evaluate (e : Expr) (m : Machine) : (Machine.left (e.evaluate m)).output = m.output := by
  have kept : Eval.Keeps (fun m' => m'.output = m.output) e.evaluate :=
    e.keeps_evaluate (fun _ here => here) (fun _ here => here) fun _ _ _ _ here _ => here
  have ends := kept m rfl
  cases done : e.evaluate m <;> rwa [done] at ends

theorem Expr.frames_holds {e : Expr} (within : e.targets ⊆ targets) : Eval.Frames added targets e.holds :=
  (Expr.frames_evaluate within).map Value.truthy

namespace Stmt

theorem frames_executeAll {ss : List Stmt} (each : ∀ s ∈ ss, Eval.Frames added targets (s.execute rounds)) :
    Eval.Frames added targets (executeAll rounds ss) := by
  induction ss with
  | nil => exact Eval.frames_pure ()
  | cons s ss ih =>
    obtain ⟨here, later⟩ := List.forall_mem_cons.mp each
    rw [executeAll]
    exact here.bind fun _ => ih later

theorem declared_subset {ss : List Stmt} (member : s ∈ ss) : s.declared ⊆ declaredIn ss :=
  fun _ declared => List.mem_flatMap.mpr ⟨s, member, declared⟩

/-- What a block declares is gone with its scope, so only the declarations of the statement itself are added. -/
theorem frames_execute {s : Stmt} (placed : s.Placed) (within : s.targets ⊆ targets)
    (declares : s.declared ⊆ added) (rounds : Nat) : Eval.Frames added targets (s.execute rounds) := by
  have nothing {added : List String} : Eval.Frames added targets (pure Value.void) := Eval.frames_pure _
  induction s using Stmt.inductionOn generalizing added with
  | missing =>
    rw [execute]
    exact Eval.frames_nest _ (Eval.frames_throw _)
  | expression e =>
    rw [execute]
    exact Eval.frames_nest _ (Expr.frames_evaluate within)
  | print e =>
    rw [execute]
    refine Eval.frames_nest _ ((Expr.frames_evaluate within).bind fun value => ?_)
    exact (Eval.frames_print value).bind fun _ => nothing
  | declare name =>
    rw [execute]
    have member : name.lexeme ∈ added := declares List.mem_cons_self
    exact Eval.frames_nest _ ((Eval.frames_define .nil member).bind fun _ => nothing)
  | define name e =>
    rw [execute]
    have member : name.lexeme ∈ added := declares List.mem_cons_self
    refine Eval.frames_nest _ ((Expr.frames_evaluate within).bind fun value => ?_)
    exact (Eval.frames_define value member).bind fun _ => nothing
  | block brace body ih =>
    rw [execute]
    have each : ∀ s ∈ body, Eval.Frames (declaredIn body) targets (s.execute rounds) := fun s member =>
      ih s member (placedAll_iff.mp placed s member) (List.Subset.trans (targets_subset member) within)
        (declared_subset member)
    exact Eval.frames_nest _ ((Eval.frames_inNewScope (frames_executeAll each)).bind fun _ => nothing)
  | ifThen condition thenBranch ih =>
    obtain ⟨tested, within⟩ := List.append_subset.mp within
    rw [execute]
    refine Eval.frames_nest _ ((Expr.frames_holds tested).bind fun holds => ?_)
    cases holds with
    | true => exact (ih placed.2 within (by simp [placed.1])).bind fun _ => nothing
    | false => exact nothing
  | ifElse condition thenBranch elseBranch then_ih else_ih =>
    obtain ⟨tested, within⟩ := List.append_subset.mp within
    obtain ⟨then_within, else_within⟩ := List.append_subset.mp within
    obtain ⟨⟨then_bare, then_placed⟩, else_bare, else_placed⟩ := placed
    rw [execute]
    refine Eval.frames_nest _ ((Expr.frames_holds tested).bind fun holds => ?_)
    cases holds with
    | true => exact (then_ih then_placed then_within (by simp [then_bare])).bind fun _ => nothing
    | false => exact (else_ih else_placed else_within (by simp [else_bare])).bind fun _ => nothing
  | loop condition body ih =>
    obtain ⟨tested, within⟩ := List.append_subset.mp within
    have turn : Eval.Frames added targets (body.execute rounds) := ih placed.2 within (by simp [placed.1])
    have again : Eval.Frames added targets (discard (body.execute rounds)) := turn.map _
    rw [execute]
    refine Eval.frames_nest _ ?_
    exact (Eval.frames_whileTrue (Expr.frames_holds tested) again rounds).bind fun _ => nothing
  | bad start error =>
    rw [execute]
    exact Eval.frames_nest _ nothing

/-- A declaration whose initializer fails binds nothing. -/
theorem define_fails {e : Expr} (failed : e.evaluate m.deeper = .error stop inside) (name : Token) (rounds : Nat) :
    ∃ stop m', (define name e).execute rounds m = .error stop m' := by
  rw [execute]
  by_cases roomy : m.Roomy
  · exact ⟨_, _, Eval.nest_of_error _ roomy (Eval.bind_of_error failed)⟩
  · exact ⟨_, _, if_pos (Nat.lt_of_not_le roomy)⟩

/-- Only the part before a declaration's name is bound can fail. -/
theorem framed_declaration {part : Eval Value} (token name : Token) (inside : Eval.Frames [] targets part)
    (failed : Eval.nest token (part >>= fun value => Eval.define name.lexeme value >>= fun _ => pure Value.void) m =
      .error stop m') : m.chain.Framed [] targets m'.chain := by
  have binds (value : Value) : Eval.Meets (fun m' => m.chain.Framed [] targets m'.chain)
      (Eval.define name.lexeme value >>= fun _ => pure Value.void) (fun _ _ => True)
      (fun _ m' => m.chain.Framed [] targets m'.chain) := fun _ _ => trivial
  have fails : Eval.Meets (fun m' => m.chain.Framed [] targets m'.chain) (Eval.nest token
      (part >>= fun value => Eval.define name.lexeme value >>= fun _ => pure Value.void)) (fun _ _ => True)
      (fun _ m' => m.chain.Framed [] targets m'.chain) := by
    refine Eval.meets_nest token (fun _ here _ => here) ?_
    refine ((inside m.chain).bind binds).mono ?_ (fun _ _ done => done) (fun _ _ stopped => stopped)
    rintro _ ⟨outer, here, _, rfl⟩
    exact here
  exact fails.of_error failed m.chain.framed_refl

/-- A statement that fails binds nothing in the scopes that were open, not even a declaration. -/
theorem framed_failed {s : Stmt} (placed : s.Placed) (failed : s.execute rounds m = .error stop m') :
    m.chain.Framed [] s.targets m'.chain := by
  cases s with
  | declare name =>
    rw [execute] at failed
    have inside : Eval.Frames [] [] (pure Value.nil) := Eval.frames_pure _
    exact framed_declaration name name inside failed
  | define name e =>
    rw [execute] at failed
    exact framed_declaration name name (Expr.frames_evaluate (List.Subset.refl _)) failed
  | missing | expression | print | block | ifThen | ifElse | loop | bad =>
    have framed := (frames_execute placed (List.Subset.refl _) (List.nil_subset []) rounds).left m
    rwa [failed] at framed

end Stmt
end Trees

/-- However it ends, evaluating an expression binds no name in any scope, gives other values only to names that it
assigns to, and prints nothing. Running a statement that declares nothing binds no name in the scopes that were
open and gives other values only to names that are assigned to in it. A declaration binds at most its own name, in
the innermost scope, and none if it or its initializer fails. -/
theorem execution_framed (rounds : Nat) (m : Machine) :
    (∀ e : Expr, m.chain.Framed [] e.targets (Machine.left (e.evaluate m)).chain ∧
      (Machine.left (e.evaluate m)).output = m.output) ∧
    (∀ s : Stmt, s.Placed → s.declared = [] →
      m.chain.Framed [] s.targets (Machine.left (s.execute rounds m)).chain) ∧
    (∀ (s : Stmt) (name : String), s.Placed → s.declared = [name] →
      m.chain.Framed [name] s.targets (Machine.left (s.execute rounds m)).chain ∧
      ∀ stop m', s.execute rounds m = .error stop m' → m.chain.Framed [] s.targets m'.chain) ∧
    ∀ name e stop inside, e.evaluate m.deeper = .error stop inside →
      m.chain.Framed [] e.targets (Machine.left ((Stmt.define name e).execute rounds m)).chain := by
  refine ⟨fun e => ⟨?_, ?_⟩, fun s placed bare => ?_, fun s name placed declares => ⟨?_, ?_⟩, ?_⟩
  · exact (Expr.frames_evaluate (List.Subset.refl _)).left m
  · exact e.output_evaluate m
  · exact (Stmt.frames_execute placed (List.Subset.refl _) (by simp [bare]) rounds).left m
  · exact (Stmt.frames_execute placed (List.Subset.refl _) (by simp [declares]) rounds).left m
  · exact fun stop m' failed => Stmt.framed_failed placed failed
  · intro name e stop inside failed
    obtain ⟨stop, m', fails⟩ := Stmt.define_fails failed name rounds
    have framed : m.chain.Framed [] (Stmt.define name e).targets m'.chain := Stmt.framed_failed trivial fails
    rw [fails]
    exact framed

/-- In a block inside two others a loop declares a name that is bound further out and assigns to it before it
fails; then the same initializer fails on its own, and one that assigns does not. -/
theorem execution_framed_shadowed :
    let a : Token := { kind := .identifier, lexeme := "a" }
    let c : Token := { kind := .identifier, lexeme := "c" }
    let failing : Expr := .unary { kind := .minus } (.assign c (.var a))
    let assigning : Expr := .assign a (.assign c (.literal (.bool true) {}))
    let body : Stmt := .block {} [.define a (.literal .nil {}), .expression assigning, .expression failing]
    let s : Stmt := .block {} [.loop (.var a) body]
    let m : Machine := { chain := { locals := [[], [("a", .void)]], globals := [("c", .nil)] } }
    s.Placed ∧ s.declared = [] ∧ m.chain.Framed [] ["a", "c", "c"] (Machine.left (s.execute 9 m)).chain ∧
    (Stmt.define a assigning).declared = ["a"] ∧
    m.chain.Framed ["a"] ["a", "c"] (Machine.left ((Stmt.define a assigning).execute 9 m)).chain ∧
    (∃ stop inside, failing.evaluate m.deeper = .error stop inside) ∧
    m.chain.Framed [] ["c"] (Machine.left ((Stmt.define a failing).execute 9 m)).chain := by
  intro a c failing assigning body s m
  obtain ⟨_, statement, declaration, initializer⟩ := execution_framed 9 m
  have placed : s.Placed := by simp [s, body, Stmt.Placed, Stmt.PlacedAll, Stmt.declared]
  have fails : failing.evaluate m.deeper = .error (.error ⟨{ kind := .minus }, .operandNotNumber⟩)
      { m with chain := { m.chain with globals := [("c", .void)] }, depth := 1 } := rfl
  refine ⟨placed, rfl, ?_, rfl, ?_, ⟨_, _, fails⟩, ?_⟩
  · exact statement s placed rfl
  · exact (declaration (.define a assigning) "a" trivial rfl).1
  · exact initializer a failing _ _ fails

end LoxLang

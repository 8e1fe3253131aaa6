import LoxLang.Proofs.Machine.Scopes
import LoxLang.Proofs.Safety

/-! Names are resolved by the text of a program. Each place in a program lies in blocks, and each of these
has declared certain names before the place. Whenever a run comes to the place, the open scopes bind just
these names, block by block, and so a name there always means the same scope. -/
namespace LoxLang

def Task.parts : Task → List Task
  | evaluate (.grouping inner) => [evaluate inner]
  | evaluate (.unary _ right) => [evaluate right]
  | evaluate (.binary left _ right) => [evaluate left, evaluate right]
  | evaluate (.assign _ value) => [evaluate value]
  | evaluate (.call callee _ arguments) => evaluate callee :: arguments.map evaluate
  | execute (.expression e) | execute (.print e) | execute (.define _ e) => [evaluate e]
  | execute (.block _ body) => body.map execute
  | execute (.ifThen condition thenBranch) => [evaluate condition, execute thenBranch]
  | execute (.ifElse condition thenBranch elseBranch) =>
    [evaluate condition, execute thenBranch, execute elseBranch]
  | execute (.loop condition body) => [evaluate condition, execute body]
  | _ => []

/-- The scope that a task opens around its part with the number, given by the names that it has then.
Only a block opens one, and the statements before the part have declared the names. -/
def Task.opens : Task → Nat → List (List String)
  | execute (.block _ body), i => [Stmt.declaredIn (body.take i)]
  | _, _ => []

/-- What stands at a place of a program, and the names that the blocks around the place have declared
before it, the innermost block first. -/
structure Site where
  task : Task
  scopes : List (List String)

def Site.part? (site : Site) (i : Nat) : Option Site :=
  site.task.parts[i]?.map fun part => { task := part, scopes := site.task.opens i ++ site.scopes }

/-- The place that the path leads to from the statement with the number `n`. A path gives the numbers of
the parts, the innermost one first. -/
def site? (program : List Stmt) (n : Nat) : List Nat → Option Site
  | [] => program[n]?.map fun s => { task := .execute s, scopes := [] }
  | i :: path => (site? program n path).bind (·.part? i)

/-- A run of the program on the machine `m` comes to the place with the machine `m'`. Where two parts of a
task that is no block are equal, it does not matter which of them is named: they lie in the same blocks. -/
inductive VisitsAt (rounds : Nat) (program : List Stmt) (m : Machine) (n : Nat) :
    List Nat → Task → Machine → Prop where
  | start : program[n]? = some s → runProgram rounds (program.take n) m = .ok value m' →
      VisitsAt rounds program m n [] (.execute s) m'
  | inBlock : VisitsAt rounds program m n path (.execute (.block brace body)) m' → m'.Roomy →
      body[i]? = some s → Stmt.executeAll rounds (body.take i) m'.deeper.opened = .ok () m'' →
      VisitsAt rounds program m n (i :: path) (.execute s) m''
  | part : VisitsAt rounds program m n path task m' → task.opens i = [] →
      task.parts[i]? = some part → Calls rounds task m' part m'' →
      VisitsAt rounds program m n (i :: path) part m''

/-- A task comes to a statement of its block, or to a part in no other scopes than its own. -/
theorem Calls.placed (calls : Calls rounds task m part m') :
    (∃ brace body i s, task = .execute (.block brace body) ∧ part = .execute s ∧ m.Roomy ∧
      body[i]? = some s ∧ Stmt.executeAll rounds (body.take i) m.deeper.opened = .ok () m') ∨
    ∃ i, task.opens i = [] ∧ task.parts[i]? = some part := by
  cases calls with
  | @block earlier _ brace s later _ roomy executed =>
    refine .inl ⟨brace, earlier ++ s :: later, earlier.length, s, rfl, rfl, roomy, by simp, ?_⟩
    rwa [List.take_left]
  | grouping | unary | left | assign | expression | print | define | ifThen | ifElse | loop =>
    exact .inr ⟨0, rfl, rfl⟩
  | right | thenOnly | thenBranch | body => exact .inr ⟨1, rfl, rfl⟩
  | elseBranch => exact .inr ⟨2, rfl, rfl⟩

theorem VisitsAt.visits (visits : VisitsAt rounds program m n path task m') :
    Visits rounds program m task m' := by
  induction visits with
  | start here executed =>
    obtain ⟨bound, rfl⟩ := List.getElem?_eq_some_iff.mp here
    have split : program = program.take n ++ program[n] :: program.drop (n + 1) := by simp
    exact .start split executed
  | @inBlock _ _ body _ i s _ _ roomy here executed ih =>
    obtain ⟨bound, rfl⟩ := List.getElem?_eq_some_iff.mp here
    have split : body.take i ++ body[i] :: body.drop (i + 1) = body := by simp
    rw [← split] at ih
    exact .call ih (.block roomy executed)
  | part _ _ _ calls ih => exact .call ih calls

/-- Every visit is a visit at some place. -/
theorem visits_iff : Visits rounds program m task m' ↔
    ∃ n path, VisitsAt rounds program m n path task m' := by
  constructor
  · intro visits
    induction visits with
    | @start earlier s later _ _ same executed =>
      refine ⟨earlier.length, [], .start (by simp [same]) (Eq.trans ?_ executed)⟩
      rw [same, List.take_left]
    | call _ calls ih =>
      obtain ⟨n, path, visits⟩ := ih
      obtain ⟨brace, body, i, s, rfl, rfl, roomy, here, executed⟩ | ⟨i, flat, here⟩ := calls.placed
      · exact ⟨n, i :: path, .inBlock visits roomy here executed⟩
      · exact ⟨n, i :: path, .part visits flat here calls⟩
  · rintro ⟨n, path, visits⟩
    exact visits.visits

def Task.Settled : Task → Prop
  | evaluate _ => True
  | execute s => s.Settled

section Names

variable {scopes : List (List String)}

theorem Turns.mirrors (turns : Turns test body n m m')
    (tested : Eval.Keeps (Machine.Mirrors scopes) test)
    (again : Eval.Keeps (Machine.Mirrors scopes) body) (start : m.Mirrors scopes) :
    m'.Mirrors scopes := by
  induction turns with
  | zero => exact start
  | succ _ holds runs ih => exact again.of_ok runs (tested.of_ok holds (ih start))

theorem Stmt.mirrors_branch {s : Stmt} (canonical : s.Canonical false) :
    Eval.Keeps (Machine.Mirrors scopes) (s.execute rounds) :=
  (names_canonical canonical rounds).branch canonical

theorem Stmt.Settled.canonical {s : Stmt} (settled : s.Settled) (proper : ∀ start e, s ≠ bad start e) :
    ∃ declares, s.Canonical declares := by
  obtain ⟨start, e, rfl⟩ | canonical := settled
  · exact absurd rfl (proper start e)
  · exact canonical

/-- A task that opens no scope comes to its parts with the names as they were. -/
theorem Calls.mirrors (calls : Calls rounds task m part m') (flat : task.opens i = [])
    (settled : task.Settled) (start : m.Mirrors scopes) : part.Settled ∧ m'.Mirrors scopes := by
  cases calls with
  | grouping | unary | left | assign | expression | print | define | ifThen | ifElse =>
    exact ⟨trivial, start⟩
  | right evaluated => exact ⟨trivial, (Expr.mirrors_evaluate _).of_ok evaluated start⟩
  | block => simp [Task.opens] at flat
  | thenOnly _ held =>
    obtain ⟨declares, canonical⟩ := Stmt.Settled.canonical settled (by simp)
    exact ⟨.inr ⟨false, canonical.2⟩, (Expr.mirrors_holds _).of_ok held start⟩
  | thenBranch _ held =>
    obtain ⟨declares, canonical⟩ := Stmt.Settled.canonical settled (by simp)
    exact ⟨.inr ⟨false, canonical.2.1⟩, (Expr.mirrors_holds _).of_ok held start⟩
  | elseBranch _ held =>
    obtain ⟨declares, canonical⟩ := Stmt.Settled.canonical settled (by simp)
    exact ⟨.inr ⟨false, canonical.2.2.2⟩, (Expr.mirrors_holds _).of_ok held start⟩
  | loop _ _ turns =>
    obtain ⟨declares, canonical⟩ := Stmt.Settled.canonical settled (by simp)
    exact ⟨trivial, turns.mirrors (Expr.mirrors_holds _) (Stmt.mirrors_branch canonical.2) start⟩
  | body _ _ turns held =>
    obtain ⟨declares, canonical⟩ := Stmt.Settled.canonical settled (by simp)
    have before := turns.mirrors (Expr.mirrors_holds _) (Stmt.mirrors_branch canonical.2) start
    exact ⟨.inr ⟨false, canonical.2⟩, (Expr.mirrors_holds _).of_ok held before⟩

end Names

section Programs

variable {program : List Stmt} (settled : ∀ s ∈ program, s.Settled)
include settled

/-- Outside of all blocks a program leaves no scope but the global one, however it ends. -/
theorem names_runProgram (rounds : Nat) :
    Eval.Keeps (Machine.Mirrors []) (runProgram rounds program) := by
  have from_value : ∀ value, Eval.Keeps (Machine.Mirrors [])
      (program.foldlM (fun _ s => s.execute rounds) value) := by
    induction program with
    | nil => exact fun value => Eval.meets_pure fun _ here => here
    | cons s program ih =>
      obtain ⟨here, later⟩ := List.forall_mem_cons.mp settled
      intro value
      rw [List.foldlM_cons]
      exact (here.names rounds []).bind fun value => ih later value
  exact from_value .void

/-- Wherever a run has come to, the open scopes are those of the blocks around the place, with the names
that these have declared before it. -/
theorem VisitsAt.mirrors (visits : VisitsAt rounds program m n path task m')
    (start : m.Mirrors []) :
    ∃ scopes, site? program n path = some { task, scopes } ∧ m'.Mirrors scopes ∧ task.Settled := by
  induction visits with
  | @start s _ _ here executed =>
    have before : ∀ s ∈ program.take n, s.Settled := fun s member =>
      settled s (List.mem_of_mem_take member)
    refine ⟨[], by rw [site?, here]; rfl, (names_runProgram before rounds).of_ok executed start, ?_⟩
    exact settled s (List.mem_of_getElem? here)
  | @inBlock path brace body m' i s m'' _ _ here executed ih =>
    obtain ⟨scopes, placed, mirrors, block⟩ := ih
    obtain ⟨declares, canonical⟩ := Stmt.Settled.canonical block (by simp)
    have each := Stmt.canonicalAll_iff.mp canonical.2
    refine ⟨Stmt.declaredIn (body.take i) :: scopes, ?_, ?_, ?_⟩
    · have part : (Task.execute (.block brace body)).parts[i]? = some (.execute s) := by
        simp [Task.parts, here]
      rw [site?, placed, Option.bind_some, Site.part?, part]
      rfl
    · have names : ∀ s ∈ body.take i, s.NamesAfter rounds := fun s member =>
        Stmt.names_canonical (each s (List.mem_of_mem_take member)) rounds
      exact (Stmt.mirrors_executeAll names [] scopes).of_ok executed (Chain.Mirrors.push mirrors)
    · exact .inr ⟨true, each s (List.mem_of_getElem? here)⟩
  | part _ flat here calls ih =>
    obtain ⟨scopes, placed, mirrors, whole⟩ := ih
    obtain ⟨part_settled, part_mirrors⟩ := calls.mirrors flat whole mirrors
    refine ⟨scopes, ?_, part_mirrors, part_settled⟩
    rw [site?, placed, Option.bind_some, Site.part?, here, flat]
    rfl

end Programs

/-- A name that the task reads or assigns is looked up by its text: in the innermost of the scopes that has
it, which does bind it, and else in the global scope, where it may be undefined. An assignment looks it up
after its value is known. -/
def Task.LooksUpIn (scopes : List (List String)) (m : Machine) : Task → Prop
  | evaluate (.var name) =>
    let target := resolve scopes name.lexeme
    (target ≠ none → (m.chain.scopeAt target).binds name.lexeme = true) ∧
      (Expr.var name).evaluate m =
        match (m.chain.scopeAt target).find? name.lexeme with
        | some value => .ok value m
        | none => .error (.error (.undefined name)) m
  | evaluate (.assign name value) =>
    let target := resolve scopes name.lexeme
    ∀ v m', m.Roomy → value.evaluate m.deeper = .ok v m' →
      (target ≠ none → (m'.chain.scopeAt target).binds name.lexeme = true) ∧
        (Expr.assign name value).evaluate m =
          if (m'.chain.scopeAt target).binds name.lexeme then
            .ok v { m'.shallower with chain := m'.chain.updateAt (Scope.set name.lexeme v) target }
          else .error (.error (.undefined name)) m'.shallower
  | _ => True

section Lookup

variable {scopes : List (List String)}

theorem Chain.Mirrors.binds_target {chain : Chain} (mirrors : chain.Mirrors scopes)
    (resolved : resolve scopes name ≠ none) :
    (chain.scopeAt (resolve scopes name)).binds name = true := by
  obtain ⟨k, found⟩ := Option.ne_none_iff_exists'.mp resolved
  rw [found]
  exact mirrors.binds_resolve found

theorem looksUp_var {m : Machine} (mirrors : m.Mirrors scopes) (name : Token) :
    (Task.evaluate (.var name)).LooksUpIn scopes m := by
  refine ⟨mirrors.binds_target, ?_⟩
  rw [← Chain.Mirrors.find?_eq mirrors]
  cases found : m.chain.find? name.lexeme with
  | some value => exact Eval.get_bound found
  | none => exact Eval.get_unbound found

theorem looksUp_assign {m : Machine} (mirrors : m.Mirrors scopes) (name : Token) (value : Expr) :
    (Task.evaluate (.assign name value)).LooksUpIn scopes m := by
  intro v m' roomy evaluated
  have after : m'.Mirrors scopes := value.mirrors_evaluate.of_ok evaluated mirrors
  have assigned := Chain.Mirrors.assign?_eq after name.lexeme v
  refine ⟨after.binds_target, ?_⟩
  split at assigned
  · rw [if_pos ‹_›]
    change Eval.nest name _ m = .ok v (Machine.shallower
      { m' with chain := m'.chain.updateAt (Scope.set name.lexeme v) (resolve scopes name.lexeme) })
    refine Eval.nest_of_ok name roomy ?_
    rw [Eval.bind_of_ok evaluated, Eval.bind_of_ok (Eval.assign_bound assigned)]
    rfl
  · rw [if_neg ‹_›]
    refine Eval.nest_of_error name roomy ?_
    rw [Eval.bind_of_ok evaluated, Eval.bind_of_error (Eval.assign_unbound assigned)]

theorem Machine.Mirrors.looksUp {m : Machine} (mirrors : m.Mirrors scopes) (task : Task) :
    task.LooksUpIn scopes m := by
  cases task with
  | execute s => trivial
  | evaluate e =>
    cases e with
    | var name => exact looksUp_var mirrors name
    | assign name value => exact looksUp_assign mirrors name value
    | _ => trivial

end Lookup

/-- Lookup is lexical. A run of what was parsed begins and ends with the global scope alone. Each visit of
the run is one of a place, and at every visit of a place the open scopes are those of the blocks around
it, each with the names that its statements before the place declare. So a name that is read or assigned
there means its binding in the innermost of these blocks that has declared it, and else its global binding,
if there is one. -/
theorem lookup_is_lexical {m : Machine} (outermost : m.chain.locals = []) (limit rounds : Nat)
    (tokens : List Token) :
    let program := (parseTokens limit tokens).1
    (Machine.left (runProgram rounds program m)).chain.locals = [] ∧
    (∀ task m', Visits rounds program m task m' ↔
      ∃ n path, VisitsAt rounds program m n path task m') ∧
    ∀ n path task m', VisitsAt rounds program m n path task m' →
      ∃ scopes, site? program n path = some { task, scopes } ∧ m'.Mirrors scopes ∧
        task.LooksUpIn scopes m' := by
  intro program
  have settled : ∀ s ∈ program, s.Settled := by
    intro s member
    exact (mem_parseTokens member).imp id fun ⟨canonical, _⟩ => ⟨true, canonical⟩
  have start : m.Mirrors [] := Chain.mirrors_nil.mpr outermost
  refine ⟨?_, fun _ _ => visits_iff, ?_⟩
  · have names := names_runProgram settled rounds
    cases done : runProgram rounds program m with
    | ok value m' => exact Chain.mirrors_nil.mp (names.of_ok done start)
    | error stop m' => exact Chain.mirrors_nil.mp (names.of_error done start)
  · intro n path task m' visits
    obtain ⟨scopes, placed, mirrors, _⟩ := visits.mirrors settled start
    exact ⟨scopes, placed, mirrors, mirrors.looksUp task⟩

/-- A variable that is declared with the value of the one that it hides, in a loop. -/
theorem lookup_is_lexical_shadowed :
    let m : Machine := { chain := { globals := [("a", .bool true)] } }
    let program := (parseTokens 9
      (scan "" "while (a) \x7b var a = a; a = nil; b; \x7d".toList).1).1
    m.chain.locals = [] ∧
    (Machine.left (runProgram 9 program m)).chain.locals = [] ∧
    (∀ task m', Visits 9 program m task m' ↔ ∃ n path, VisitsAt 9 program m n path task m') ∧
    ∀ n path task m', VisitsAt 9 program m n path task m' →
      ∃ scopes, site? program n path = some { task, scopes } ∧ m'.Mirrors scopes ∧
        task.LooksUpIn scopes m' :=
  ⟨rfl, lookup_is_lexical rfl 9 9 _⟩

/-- The initializer lies before the declaration of its own name, the assignment after it. -/
example :
    let program := (parseTokens 9
      (scan "" "while (a) \x7b var a = a; a = nil; b; \x7d".toList).1).1
    (site? program 0 [0, 0, 1]).map Site.scopes = some [[]] ∧
      (site? program 0 [0, 1, 1]).map Site.scopes = some [["a"]] := by
  decide +kernel

end LoxLang

import LoxLang.Proofs.Machine.Scopes
import LoxLang.Scope.Forest

/-! The store of scopes. Scopes that share the scopes around them form trees, so that a change made through one of
them is seen through others. After any history of changes the way from a scope outwards is finite, a name is looked
up in the first scope on it that binds the name, and a change is seen through exactly those scopes whose way leads
to the changed one before any other that binds the name. -/
namespace LoxLang.Forest

def value? (forest : Forest) (name : String) (index : Nat) : Option Value :=
  (forest.node? index).bind fun node => node.scope.find? name

/-- The way from a scope outwards, through each scope to the one around it, up to one with none around it. -/
inductive Walk (forest : Forest) : Nat → List Nat → Prop where
  | root : forest.node? index = some node → node.enclosing = none → Walk forest index [index]
  | inside : forest.node? index = some node → node.enclosing = some outer → Walk forest outer path →
      Walk forest index (index :: path)

/-- Looked at from `start`, the scope is not hidden by one further in that binds the name. -/
def Sees (forest : Forest) (name : String) (start scope : Nat) : Prop :=
  ∃ inner outer, forest.Walk start (inner ++ scope :: outer) ∧ ∀ s ∈ inner, forest.value? name s = none

/-- Looked at from `start`, the name means its binding in the scope. -/
def Resolves (forest : Forest) (name : String) (start scope : Nat) : Prop :=
  forest.Sees name start scope ∧ forest.value? name scope ≠ none

/-- A store that was made by any operations, those that fail included. -/
inductive Reachable : Forest → Prop where
  | empty : Reachable {}
  | create (enclosing : Option Nat) : Reachable forest → Reachable (forest.create enclosing)
  | define (name : String) (value : Value) (index : Nat) : Reachable forest →
      Reachable (forest.define name value index)
  | assign : Reachable forest → assign name value index forest = .ok () changed → Reachable changed
  | fail : Reachable forest → assign name value index forest = .error error changed → Reachable changed

/-- Every scope lies inside an older one, if in any. -/
def Ordered (forest : Forest) : Prop :=
  ∀ index node outer, forest.node? index = some node → node.enclosing = some outer → outer < index

section Operations

variable {forest : Forest} {name : Token} {value : Value} {index : Nat}

theorem read_bind (next : Forest → EStateM RuntimeError Forest α) (forest : Forest) :
    (EStateM.get >>= next) forest = next forest forest := rfl

theorem get_found (found : forest.find? name.lexeme index = some value) :
    get name index forest = .ok value forest := by
  unfold get
  rw [read_bind, found]
  rfl

theorem get_missing (missing : forest.find? name.lexeme index = none) :
    get name index forest = .error (.undefined name) forest := by
  unfold get
  rw [read_bind, missing]
  rfl

theorem assign_found (value : Value) (found : forest.resolve? name.lexeme index = some scope) :
    assign name value index forest = .ok () (forest.define name.lexeme value scope) := by
  unfold assign
  rw [read_bind, assign?, found]
  rfl

theorem assign_missing (value : Value) (missing : forest.resolve? name.lexeme index = none) :
    assign name value index forest = .error (.undefined name) forest := by
  unfold assign
  rw [read_bind, assign?, missing]
  rfl

end Operations

section Walks

variable {forest : Forest}

theorem node?_define (forest : Forest) (name : String) (value : Value) (index other : Nat) :
    (forest.define name value index).node? other = (forest.node? other).map fun node =>
      if index = other then { node with scope := node.scope.set name value } else node :=
  List.getElem?_modify ..

theorem value?_define_here (here : forest.node? index = some node) :
    (forest.define name value index).value? name index = some value := by
  rw [value?, node?_define, here]
  simp [Scope.find?_set]

theorem value?_define_elsewhere (elsewhere : scope ≠ index ∨ other ≠ name) (value : Value) :
    (forest.define name value index).value? other scope = forest.value? other scope := by
  rw [value?, value?, node?_define]
  cases forest.node? scope with
  | none => rfl
  | some node =>
    by_cases here : index = scope
    · have differs : other ≠ name := elsewhere.resolve_left fun differs => differs here.symm
      simp [here, Scope.find?_set, differs]
    · simp [here]

theorem node?_define_enclosing (here : forest.node? other = some node) (name : String) (value : Value)
    (index : Nat) :
    ∃ changed, (forest.define name value index).node? other = some changed ∧
      changed.enclosing = node.enclosing := by
  refine ⟨_, by rw [node?_define, here, Option.map_some], ?_⟩
  split <;> rfl

/-- Binding names changes no way. -/
theorem Walk.define (walk : forest.Walk start path) (name : String) (value : Value) (index : Nat) :
    (forest.define name value index).Walk start path := by
  induction walk with
  | root here none =>
    obtain ⟨changed, there, same⟩ := node?_define_enclosing here name value index
    exact .root there (same.trans none)
  | inside here around _ ih =>
    obtain ⟨changed, there, same⟩ := node?_define_enclosing here name value index
    exact .inside there (same.trans around) ih

/-- Each scope has one scope around it at most. -/
theorem Walk.unique (walk : forest.Walk start path) (other : forest.Walk start way) : way = path := by
  induction walk generalizing way with
  | root here none =>
    cases other with
    | root => rfl
    | inside there around =>
      obtain rfl := Option.some.inj (here.symm.trans there)
      rw [none] at around
      contradiction
  | inside here around _ ih =>
    cases other with
    | root there none =>
      obtain rfl := Option.some.inj (here.symm.trans there)
      rw [none] at around
      contradiction
    | inside there further rest =>
      obtain rfl := Option.some.inj (here.symm.trans there)
      obtain rfl := Option.some.inj (around.symm.trans further)
      rw [ih rest]

theorem Walk.exists_node (walk : forest.Walk start path) (member : scope ∈ path) :
    ∃ node, forest.node? scope = some node := by
  induction walk with
  | root here =>
    obtain rfl := List.mem_singleton.mp member
    exact ⟨_, here⟩
  | inside here _ _ ih =>
    rcases List.mem_cons.mp member with rfl | later
    · exact ⟨_, here⟩
    · exact ih later

theorem ordered_empty : Ordered {} := by
  intro index node outer here
  simp [node?] at here

theorem Ordered.create (ordered : forest.Ordered) (enclosing : Option Nat) : (forest.create enclosing).Ordered := by
  intro index node outer here around
  rw [node?, Forest.create, List.getElem?_append] at here
  split at here
  · exact ordered index node outer here around
  · rename_i past
    rw [List.getElem?_singleton, Option.ite_none_right_eq_some] at here
    obtain ⟨last, same⟩ := here
    obtain rfl := Option.some.inj same
    obtain ⟨_, older⟩ := Option.filter_eq_some_iff.mp around
    simp only [decide_eq_true_eq] at older
    omega

theorem Ordered.define (ordered : forest.Ordered) (name : String) (value : Value) (index : Nat) :
    (forest.define name value index).Ordered := by
  intro other node outer here around
  rw [node?_define] at here
  obtain ⟨before, there, rfl⟩ := Option.map_eq_some_iff.mp here
  refine ordered other before outer there ?_
  split at around <;> exact around

/-- A scope is created inside an older one or none, and no operation changes what it is inside of. -/
theorem Reachable.ordered (reachable : forest.Reachable) : forest.Ordered := by
  induction reachable with
  | empty => exact ordered_empty
  | create enclosing _ ih => exact ih.create enclosing
  | define name value index _ ih => exact ih.define name value index
  | @assign forest name value index changed _ assigned ih =>
    cases found : forest.resolve? name.lexeme index with
    | some scope =>
      rw [assign_found value found] at assigned
      cases assigned
      exact ih.define name.lexeme value scope
    | none =>
      rw [assign_missing value found] at assigned
      contradiction
  | @fail forest name value index error changed _ failed ih =>
    cases found : forest.resolve? name.lexeme index with
    | some scope =>
      rw [assign_found value found] at failed
      contradiction
    | none =>
      rw [assign_missing value found] at failed
      cases failed
      exact ih

/-- The way outwards from every scope comes to an end, since it leads to older scopes only. -/
theorem Ordered.exists_walk (ordered : forest.Ordered) (here : forest.node? start = some node) :
    ∃ path, forest.Walk start path := by
  induction start using Nat.strongRecOn generalizing node with
  | ind start ih =>
    cases around : node.enclosing with
    | none => exact ⟨_, .root here around⟩
    | some outer =>
      have older := ordered start node outer here around
      have bound : outer < forest.nodes.length := Nat.lt_trans older (List.getElem?_eq_some_iff.mp here).1
      obtain ⟨path, rest⟩ := ih outer older (List.getElem?_eq_getElem bound)
      exact ⟨_, .inside here around rest⟩

/-- A name is searched for along the way outwards. -/
theorem Ordered.resolve?_eq (ordered : forest.Ordered) (walk : forest.Walk start path) (name : String) :
    forest.resolve? name start = path.find? fun scope => (forest.value? name scope).isSome := by
  induction walk with
  | root here around =>
    rw [resolve?, here]
    simp only [around, List.find?_singleton, value?, here, Option.bind_some]
    rfl
  | @inside start node outer path here around _ ih =>
    rw [resolve?, here]
    have older := ordered start node outer here around
    simp only [around, List.find?_cons, value?, here, Option.bind_some, if_pos older, ih]
    by_cases bound : node.scope.binds name
    · rw [if_pos bound]
      unfold Scope.binds at bound
      rw [bound]
    · rw [if_neg bound]
      unfold Scope.binds at bound
      simp only [Bool.not_eq_true] at bound
      rw [bound]

theorem findSome?_first (f : Nat → Option α) (path : List Nat) :
    (path.find? fun scope => (f scope).isSome).bind f = path.findSome? f := by
  induction path with
  | nil => rfl
  | cons scope path ih =>
    rw [List.find?_cons, List.findSome?_cons]
    cases found : f scope with
    | some value => exact found
    | none => exact ih

/-- The value of a name is that in the first scope on the way outwards that binds it. -/
theorem Ordered.find?_eq (ordered : forest.Ordered) (walk : forest.Walk start path) (name : String) :
    forest.find? name start = path.findSome? (forest.value? name) := by
  rw [← findSome?_first, ← ordered.resolve?_eq walk]
  rfl

theorem resolve?_absent (absent : forest.node? start = none) (name : String) :
    forest.resolve? name start = none := by
  rw [resolve?, absent]

theorem find?_absent (absent : forest.node? start = none) (name : String) : forest.find? name start = none := by
  rw [find?, resolve?_absent absent]
  rfl

end Walks

/-- A change in one scope is seen where no scope before it has a value. -/
theorem findSome?_seen {old new : Nat → Option α} {inner : List Nat}
    (same : ∀ scope, scope ≠ index → new scope = old scope)
    (here : new index = some value) (hidden : ∀ scope ∈ inner, old scope = none) (outer : List Nat) :
    (inner ++ index :: outer).findSome? new = some value := by
  induction inner with
  | nil => rw [List.nil_append, List.findSome?_cons, here]
  | cons scope inner ih =>
    obtain ⟨first, later⟩ := List.forall_mem_cons.mp hidden
    rw [List.cons_append, List.findSome?_cons]
    by_cases found : scope = index
    · rw [found, here]
    · rw [same scope found, first]
      exact ih later

/-- A change in one scope is not seen behind another one that has a value. -/
theorem findSome?_hidden {old new : Nat → Option α} (same : ∀ scope, scope ≠ index → new scope = old scope)
    (hidden : ∀ inner outer, path = inner ++ index :: outer → ∃ scope ∈ inner, old scope ≠ none) :
    path.findSome? new = path.findSome? old := by
  induction path with
  | nil => rfl
  | cons scope path ih =>
    by_cases found : scope = index
    · obtain ⟨other, member, _⟩ := hidden [] path (by rw [found, List.nil_append])
      contradiction
    · rw [List.findSome?_cons, List.findSome?_cons, same scope found]
      cases value : old scope with
      | some v => rfl
      | none =>
        refine ih fun inner outer split => ?_
        obtain ⟨other, member, bound⟩ := hidden (scope :: inner) outer (by rw [split, List.cons_append])
        rcases List.mem_cons.mp member with rfl | later
        · exact absurd value bound
        · exact ⟨other, later, bound⟩

section Laws

variable {forest : Forest}

theorem Ordered.find?_define_seen (ordered : forest.Ordered) (seen : forest.Sees name start index)
    (value : Value) : (forest.define name value index).find? name start = some value := by
  obtain ⟨inner, outer, walk, hidden⟩ := seen
  obtain ⟨node, here⟩ := walk.exists_node (List.mem_append_right inner List.mem_cons_self)
  rw [(ordered.define name value index).find?_eq (walk.define name value index)]
  refine findSome?_seen (fun scope other => ?_) (value?_define_here here) hidden outer
  exact value?_define_elsewhere (.inl other) value

theorem Ordered.find?_define_hidden (ordered : forest.Ordered)
    (hidden : ¬ (other = name ∧ forest.Sees name start index)) (value : Value) :
    (forest.define name value index).find? other start = forest.find? other start := by
  cases here : forest.node? start with
  | none =>
    have absent : (forest.define name value index).node? start = none := by
      rw [node?_define, here]
      rfl
    rw [find?_absent absent, find?_absent here]
  | some node =>
    obtain ⟨path, walk⟩ := ordered.exists_walk here
    rw [(ordered.define name value index).find?_eq (walk.define name value index), ordered.find?_eq walk]
    by_cases same : other = name
    · subst same
      refine findSome?_hidden (fun scope other => value?_define_elsewhere (.inl other) value) ?_
      rintro inner outer rfl
      by_contra unbound
      refine hidden ⟨rfl, inner, outer, walk, fun scope member => ?_⟩
      by_contra bound
      exact unbound ⟨scope, member, bound⟩
    · have unchanged : (forest.define name value index).value? other = forest.value? other :=
        funext fun scope => value?_define_elsewhere (.inr same) value
      rw [unchanged]

/-- A name means its binding in the scope that the search comes to. -/
theorem Ordered.resolves_iff (ordered : forest.Ordered) :
    forest.Resolves name start scope ↔ forest.resolve? name start = some scope := by
  constructor
  · rintro ⟨⟨inner, outer, walk, hidden⟩, bound⟩
    rw [ordered.resolve?_eq walk, List.find?_eq_some_iff_append]
    refine ⟨Option.isSome_iff_ne_none.mpr bound, inner, outer, rfl, fun s member => ?_⟩
    rw [hidden s member]
    rfl
  · intro found
    cases here : forest.node? start with
    | none =>
      rw [resolve?_absent here] at found
      contradiction
    | some node =>
      obtain ⟨path, walk⟩ := ordered.exists_walk here
      rw [ordered.resolve?_eq walk, List.find?_eq_some_iff_append] at found
      obtain ⟨bound, inner, outer, rfl, hidden⟩ := found
      refine ⟨⟨inner, outer, walk, fun s member => ?_⟩, Option.isSome_iff_ne_none.mp bound⟩
      simpa using hidden s member

/-- A name is looked up, got and assigned to where it resolves to a scope, and nowhere else. -/
theorem Ordered.together (ordered : forest.Ordered) (name : Token) (value : Value) (start : Nat) :
    (∃ scope found changed, forest.Resolves name.lexeme start scope ∧
      forest.find? name.lexeme start = some found ∧ get name start forest = .ok found forest ∧
      assign name value start forest = .ok () changed) ∨
    (∀ scope, ¬ forest.Resolves name.lexeme start scope) ∧ forest.find? name.lexeme start = none ∧
      get name start forest = .error (.undefined name) forest ∧
      assign name value start forest = .error (.undefined name) forest := by
  cases resolved : forest.resolve? name.lexeme start with
  | some scope =>
    have resolves := ordered.resolves_iff.mpr resolved
    obtain ⟨found, bound⟩ := Option.ne_none_iff_exists'.mp resolves.2
    have lookup : forest.find? name.lexeme start = some found := by
      rw [find?, resolved]
      exact bound
    exact .inl ⟨scope, found, _, resolves, lookup, get_found lookup, assign_found value resolved⟩
  | none =>
    have lookup : forest.find? name.lexeme start = none := by
      rw [find?, resolved]
      rfl
    refine .inr ⟨fun scope resolves => ?_, lookup, get_missing lookup, assign_missing value resolved⟩
    have found := ordered.resolves_iff.mp resolves
    rw [resolved] at found
    contradiction

/-- An assignment binds the name anew in the scope that it resolves to. -/
theorem Ordered.assign_defines (ordered : forest.Ordered)
    (assigned : assign name value start forest = .ok () changed) :
    ∃ scope, forest.Resolves name.lexeme start scope ∧ changed = forest.define name.lexeme value scope := by
  cases resolved : forest.resolve? name.lexeme start with
  | some scope =>
    rw [assign_found value resolved] at assigned
    cases assigned
    exact ⟨scope, ordered.resolves_iff.mpr resolved, rfl⟩
  | none =>
    rw [assign_missing value resolved] at assigned
    contradiction

theorem Ordered.resolves_unique (ordered : forest.Ordered) (first : forest.Resolves name start scope)
    (second : forest.Resolves name start other) : other = scope :=
  Option.some.inj ((ordered.resolves_iff.mp second).symm.trans (ordered.resolves_iff.mp first))

end Laws

/-- After any operations: from every scope the way outwards is finite, and there is only one. Looking a name up,
getting it and assigning to it succeed where it resolves to a scope, and fail together where it does not; a failure
changes nothing. An assignment is seen by the lookups of the name that resolve to the same scope, and a definition by
those from which the scope is not hidden; no other lookup is changed. -/
theorem scope_tree_law {forest : Forest} (reachable : forest.Reachable) :
    (∀ start < forest.nodes.length, ∃ path, forest.Walk start path ∧ ∀ way, forest.Walk start way → way = path) ∧
    (∀ (name : Token) (value : Value) (start : Nat),
      (∃ scope found changed, forest.Resolves name.lexeme start scope ∧
        forest.find? name.lexeme start = some found ∧ get name start forest = .ok found forest ∧
        assign name value start forest = .ok () changed) ∨
      (∀ scope, ¬ forest.Resolves name.lexeme start scope) ∧ forest.find? name.lexeme start = none ∧
        get name start forest = .error (.undefined name) forest ∧
        assign name value start forest = .error (.undefined name) forest) ∧
    (∀ (name : Token) (value : Value) (start : Nat) (changed : Forest) (viewer : Nat) (other : String),
      assign name value start forest = .ok () changed →
      ((other = name.lexeme ∧ ∃ scope, forest.Resolves name.lexeme start scope ∧
          forest.Resolves name.lexeme viewer scope) → changed.find? other viewer = some value) ∧
      (¬ (other = name.lexeme ∧ ∃ scope, forest.Resolves name.lexeme start scope ∧
          forest.Resolves name.lexeme viewer scope) → changed.find? other viewer = forest.find? other viewer)) ∧
    ∀ (name : String) (value : Value) (scope viewer : Nat) (other : String),
      (other = name ∧ forest.Sees name viewer scope →
        (forest.define name value scope).find? other viewer = some value) ∧
      (¬ (other = name ∧ forest.Sees name viewer scope) →
        (forest.define name value scope).find? other viewer = forest.find? other viewer) := by
  have ordered := reachable.ordered
  refine ⟨fun start created => ?_, ordered.together, fun name value start changed viewer other assigned => ?_,
    fun name value scope viewer other => ⟨?_, fun hidden => ordered.find?_define_hidden hidden value⟩⟩
  · obtain ⟨path, walk⟩ := ordered.exists_walk (List.getElem?_eq_getElem created)
    exact ⟨path, walk, fun way => walk.unique⟩
  · obtain ⟨scope, resolves, rfl⟩ := ordered.assign_defines assigned
    constructor
    · rintro ⟨rfl, same, first, second⟩
      obtain rfl := ordered.resolves_unique resolves first
      exact ordered.find?_define_seen second.1 value
    · intro apart
      refine ordered.find?_define_hidden (fun seen => apart ⟨seen.1, scope, resolves, seen.2, ?_⟩) value
      exact resolves.2
  · rintro ⟨rfl, seen⟩
    exact ordered.find?_define_seen seen value

/-- Scopes one and two lie side by side in scope zero, and three lies in one; zero and one bind the same name. -/
theorem scope_tree_law_siblings :
    let name : Token := { kind := .identifier, lexeme := "a" }
    let tree : Forest := (((create {} none).create (some 0)).create (some 0)).create (some 1)
    let forest : Forest := (tree.define "a" .nil 0).define "a" (.bool true) 1
    forest.Reachable ∧ (∃ path, forest.Walk 3 path ∧ ∀ way, forest.Walk 3 way → way = path) ∧
    (∃ changed, assign name .void 3 forest = .ok () changed ∧ changed.find? "a" 1 = some .void ∧
      changed.find? "a" 2 = forest.find? "a" 2) ∧
    (forest.define "a" .void 0).find? "a" 2 = some .void ∧
    (forest.define "a" .void 0).find? "a" 3 = forest.find? "a" 3 := by
  intro name tree forest
  have reachable : forest.Reachable :=
    .define _ _ _ (.define _ _ _ (.create _ (.create _ (.create _ (.create _ .empty)))))
  have ordered := reachable.ordered
  have zero : forest.Walk 0 [0] := .root rfl rfl
  have one : forest.Walk 1 [1, 0] := .inside rfl rfl zero
  have two : forest.Walk 2 [2, 0] := .inside rfl rfl zero
  have three : forest.Walk 3 [3, 1, 0] := .inside rfl rfl one
  have inner (scope : Nat) (free : forest.value? "a" scope = none) : ∀ s ∈ [scope], forest.value? "a" s = none :=
    List.forall_mem_singleton.mpr free
  have bound_zero : forest.value? "a" 0 ≠ none := Option.some_ne_none Value.nil
  have bound_one : forest.value? "a" 1 ≠ none := Option.some_ne_none (Value.bool true)
  have from_one : forest.Resolves "a" 1 1 := ⟨⟨[], [0], one, by simp⟩, bound_one⟩
  have from_two : forest.Resolves "a" 2 0 := ⟨⟨[2], [], two, inner 2 rfl⟩, bound_zero⟩
  have from_three : forest.Resolves "a" 3 1 := ⟨⟨[3], [0], three, inner 3 rfl⟩, bound_one⟩
  obtain ⟨finite, together, assigns, defines⟩ := scope_tree_law reachable
  refine ⟨reachable, finite 3 (by decide), ?_, ?_, ?_⟩
  · rcases together name .void 3 with ⟨_, _, changed, _, _, _, assigned⟩ | ⟨missing, _⟩
    · refine ⟨changed, assigned, ?_, ?_⟩
      · exact (assigns name .void 3 changed 1 "a" assigned).1 ⟨rfl, 1, from_three, from_one⟩
      · refine (assigns name .void 3 changed 2 "a" assigned).2 ?_
        rintro ⟨_, scope, first, second⟩
        have same := (ordered.resolves_unique from_three first).symm.trans (ordered.resolves_unique from_two second)
        contradiction
    · exact absurd from_three (missing 1)
  · exact (defines "a" .void 0 2 "a").1 ⟨rfl, from_two.1⟩
  · refine (defines "a" .void 0 3 "a").2 fun seen => ?_
    have same := ordered.resolves_unique from_three ⟨seen.2, from_two.2⟩
    contradiction

end LoxLang.Forest

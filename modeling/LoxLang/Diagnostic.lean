import LoxLang.Token

/-! Diagnostics: what went wrong, where, and in which phase. A diagnostic is a leaf, or one seen
through a trace or a context, or a list. `absent` is the place of a diagnostic that is not there;
it has no text, so a list that holds it cannot be written. -/
namespace LoxLang

/-- The stages of running a program, in order of severity. -/
inductive Phase where
  | none | lexical | syntactic | runtime
deriving DecidableEq, Inhabited, Repr

namespace Phase

def rank : Phase → Nat
  | none => 0
  | lexical => 1
  | syntactic => 2
  | runtime => 3

/-- The phase with the given number; numbers out of range mean none. -/
def ofCode : Int → Phase
  | 1 => lexical
  | 2 => syntactic
  | 3 => runtime
  | _ => none

def name : Phase → String
  | none => "none"
  | lexical => "lexical"
  | syntactic => "syntactic"
  | runtime => "runtime"

def worst (a b : Phase) : Phase :=
  if a.rank < b.rank then b else a

theorem worst_assoc (a b c : Phase) : (a.worst b).worst c = a.worst (b.worst c) := by
  cases a <;> cases b <;> cases c <;> rfl

@[simp] theorem worst_none (a : Phase) : a.worst none = a := by
  cases a <;> rfl

@[simp] theorem none_worst (a : Phase) : none.worst a = a := by
  cases a <;> rfl

end Phase

inductive Diagnostic where
  | absent
  | plain (message : String)
  | lexical (position : Position) (message : String)
  | unexpected (token : Token) (message : String)
  | expected (kind : TokenKind) (got : Token) (message : String)
  | runtime (token : Token) (message : String)
  | traced (inner : Diagnostic)
  | wrapped (context : String) (inner : Diagnostic)
  | list (items : List Diagnostic)
deriving Inhabited

namespace Diagnostic

/-- How a syntactic diagnostic names the token at fault. -/
def place (t : Token) : String :=
  if t.kind = .eof then " at end" else s!" at '{t.lexeme}'"

mutual

/-- The text of a diagnostic. Only an absent one has none. -/
def text? : Diagnostic → Option String
  | absent => none
  | plain message => some message
  | lexical position message => some s!"[line {position.line}] Error: {message}"
  | unexpected token message => some s!"[line {token.line}] Error{place token}: {message}"
  | expected _ got message => some s!"[line {got.line}] Error{place got}: {message}"
  | runtime token message => some s!"[line {token.line}] RuntimeError: {message}"
  | traced inner => inner.text?
  | wrapped context absent => some s!"{context}: %!w(<nil>)"
  | wrapped context inner => inner.text?.map fun text => s!"{context}: {text}"
  | list items => (texts? items).map ("\n".intercalate ·)

/-- The texts of all the diagnostics, if each has one. -/
def texts? : List Diagnostic → Option (List String)
  | [] => some []
  | item :: items =>
    match item.text?, texts? items with
    | some text, some texts => some (text :: texts)
    | _, _ => none

end

/-- The diagnostic with a trace around it. One trace is enough, and nothing is not traced. -/
def trace : Diagnostic → Diagnostic
  | absent => absent
  | traced inner => traced inner
  | d => traced d

def untraced : Diagnostic → Diagnostic
  | traced inner => inner
  | d => d

/-- The items of the list that a diagnostic leads to through traces and contexts. -/
def items? : Diagnostic → Option (List Diagnostic)
  | list items => some items
  | traced inner | wrapped _ inner => inner.items?
  | _ => none

/-- The phase of a complaint; nothing else has one of its own. -/
def own? : Diagnostic → Option Phase
  | lexical .. => some .lexical
  | unexpected .. | expected .. => some .syntactic
  | runtime .. => some .runtime
  | _ => none

/-- The phase of the complaint that a diagnostic leads to through traces and contexts. -/
def complaint? : Diagnostic → Option Phase
  | traced inner | wrapped _ inner => inner.complaint?
  | d => d.own?

theorem items?_untraced (d : Diagnostic) : d.untraced.items? = d.items? := by
  cases d <;> rfl

theorem complaint?_untraced (d : Diagnostic) : d.untraced.complaint? = d.complaint? := by
  cases d <;> rfl

theorem sizeOf_item {d e : Diagnostic} (found : d.items? = some items) (member : e ∈ items) :
    sizeOf e < sizeOf d := by
  fun_induction items? d with
  | case1 =>
    obtain rfl := Option.some.inj found
    have smaller := List.sizeOf_lt_of_mem member
    simp only [list.sizeOf_spec]
    omega
  | case2 inner ih | case3 context inner ih =>
    have smaller := ih found
    simp only [traced.sizeOf_spec, wrapped.sizeOf_spec]
    omega
  | case4 => contradiction

/-- The phase of a diagnostic: of the list that it leads to the most severe one, or else that of the
complaint that it leads to. A list is looked for first, and each item is looked at in the same way. -/
def phase (d : Diagnostic) : Phase :=
  match _ : d.untraced.items? with
  | some items => items.attach.foldl (fun worst item => worst.worst item.val.phase) .none
  | none => d.untraced.complaint?.getD .none
termination_by d
decreasing_by
  rename_i found
  exact sizeOf_item (d.items?_untraced ▸ found) item.property

def worstPhase (ds : List Diagnostic) : Phase :=
  ds.foldl (fun worst d => worst.worst d.phase) .none

/-- Wrapping and tracing around a list do not hide its items. -/
theorem phase_of_items {d : Diagnostic} (found : d.items? = some items) : d.phase = worstPhase items := by
  rw [← items?_untraced] at found
  unfold phase
  split
  · rename_i others same
    obtain rfl := Option.some.inj (found.symm.trans same)
    exact List.foldl_attach (f := fun (worst : Phase) (d : Diagnostic) => worst.worst d.phase)
  · rename_i same
    rw [found] at same
    contradiction

theorem phase_of_complaint {d : Diagnostic} (found : d.items? = none) : d.phase = d.complaint?.getD .none := by
  rw [← items?_untraced] at found
  unfold phase
  split
  · rename_i same
    rw [found] at same
    contradiction
  · rw [complaint?_untraced]

@[simp] theorem phase_traced (d : Diagnostic) : (traced d).phase = d.phase := by
  cases found : d.items? with
  | some items => rw [phase_of_items found, phase_of_items (d := traced d) found]
  | none => rw [phase_of_complaint found, phase_of_complaint (d := traced d) found, complaint?]

@[simp] theorem phase_wrapped (context : String) (d : Diagnostic) : (wrapped context d).phase = d.phase := by
  cases found : d.items? with
  | some items => rw [phase_of_items found, phase_of_items (d := wrapped context d) found]
  | none => rw [phase_of_complaint found, phase_of_complaint (d := wrapped context d) found, complaint?]

@[simp] theorem phase_trace (d : Diagnostic) : d.trace.phase = d.phase := by
  cases d with
  | absent | traced => rfl
  | _ => exact phase_traced _

@[simp] theorem phase_list (ds : List Diagnostic) : (list ds).phase = worstPhase ds :=
  phase_of_items rfl

theorem worstPhase_cons (d : Diagnostic) (ds : List Diagnostic) :
    worstPhase (d :: ds) = d.phase.worst (worstPhase ds) := by
  have from_phase : ∀ p : Phase, ds.foldl (fun worst d => worst.worst d.phase) p = p.worst (worstPhase ds) := by
    unfold worstPhase
    induction ds with
    | nil => simp
    | cons e es ih =>
      intro p
      rw [List.foldl_cons, List.foldl_cons, ih, ih (Phase.none.worst e.phase), Phase.none_worst, Phase.worst_assoc]
  rw [worstPhase, List.foldl_cons, from_phase, Phase.none_worst]

theorem worstPhase_append (ds es : List Diagnostic) :
    worstPhase (ds ++ es) = (worstPhase ds).worst (worstPhase es) := by
  induction ds with
  | nil => exact (Phase.none_worst _).symm
  | cons d ds ih => rw [List.cons_append, worstPhase_cons, worstPhase_cons, ih, Phase.worst_assoc]

/-- The diagnostics to show one by one: the items of a list, or the diagnostic itself. -/
def shown (d : Diagnostic) : List Diagnostic :=
  d.items?.getD [d.untraced]

end Diagnostic
end LoxLang

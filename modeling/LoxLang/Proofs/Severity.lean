import LoxLang.Diagnostic

/-! The phase of a diagnostic is the most severe among its leaves. The search takes away one trace, looks for a
list before it looks for a complaint, and begins again at every item; still only the leaves count, and not
how they are traced, put into contexts, ordered or nested in lists. -/
namespace LoxLang

namespace Phase

theorem rank_injective {a b : Phase} (same : a.rank = b.rank) : a = b := by
  cases a <;> cases b <;> simp_all [rank]

theorem rank_worst (a b : Phase) : (a.worst b).rank = max a.rank b.rank := by
  cases a <;> cases b <;> rfl

/-- The phase is among the others, and none of them is more severe. Where there are no others it is `none`. -/
structure IsWorst (p : Phase) (among : List Phase) : Prop where
  bound : ∀ q ∈ among, q.rank ≤ p.rank
  attained : p ∈ among ∨ among = [] ∧ p = none

theorem isWorst_nil : IsWorst none [] := ⟨by simp, .inr ⟨rfl, rfl⟩⟩

theorem isWorst_singleton (p : Phase) : IsWorst p [p] := ⟨by simp, .inl List.mem_cons_self⟩

theorem worst_mem_or (a b : Phase) : a.worst b = a ∨ a.worst b = b := by
  unfold worst
  split
  · exact .inr rfl
  · exact .inl rfl

theorem IsWorst.append {p q : Phase} {first second : List Phase} (here : p.IsWorst first)
    (there : q.IsWorst second) : (p.worst q).IsWorst (first ++ second) := by
  constructor
  · intro r member
    rw [rank_worst]
    rcases List.mem_append.mp member with left | right
    · exact Nat.le_trans (here.bound r left) (Nat.le_max_left _ _)
    · exact Nat.le_trans (there.bound r right) (Nat.le_max_right _ _)
  · rcases here.attained with left | ⟨rfl, rfl⟩
    · rcases there.attained with right | ⟨rfl, rfl⟩
      · left
        rcases worst_mem_or p q with same | same
        · rw [same]
          exact List.mem_append_left _ left
        · rw [same]
          exact List.mem_append_right _ right
      · rw [worst_none, List.append_nil]
        exact .inl left
    · rw [none_worst, List.nil_append]
      exact there.attained

/-- Only the members of a row count for its most severe phase. -/
theorem IsWorst.unique {p q : Phase} {first second : List Phase} (here : p.IsWorst first)
    (there : q.IsWorst second) (same : ∀ r, r ∈ first ↔ r ∈ second) : p = q := by
  rcases here.attained with left | ⟨rfl, rfl⟩
  · rcases there.attained with right | ⟨rfl, rfl⟩
    · exact rank_injective (Nat.le_antisymm (there.bound p ((same p).mp left)) (here.bound q ((same q).mpr right)))
    · exact absurd ((same p).mp left) List.not_mem_nil
  · rcases there.attained with right | ⟨rfl, rfl⟩
    · exact absurd ((same q).mpr right) List.not_mem_nil
    · rfl

end Phase

namespace Diagnostic

/-- Induction over a diagnostic, where the items of a list come one by one. -/
@[elab_as_elim]
theorem inductionOn {motive : Diagnostic → Prop} (d : Diagnostic) (absent : motive .absent)
    (plain : ∀ message, motive (.plain message))
    (lexical : ∀ position message, motive (.lexical position message))
    (unexpected : ∀ token message, motive (.unexpected token message))
    (expected : ∀ kind got message, motive (.expected kind got message))
    (runtime : ∀ token message, motive (.runtime token message))
    (traced : ∀ inner, motive inner → motive (.traced inner))
    (wrapped : ∀ context inner, motive inner → motive (.wrapped context inner))
    (list : ∀ items, (∀ d ∈ items, motive d) → motive (.list items)) : motive d := by
  refine @Diagnostic.rec motive (fun ds => ∀ d ∈ ds, motive d) absent plain lexical unexpected expected runtime
    traced wrapped list ?_ ?_ d
  · intro d member
    contradiction
  · intro d ds here later e member
    rcases List.mem_cons.mp member with rfl | member
    · exact here
    · exact later e member

/-- The phase in which a leaf arose, `none` if it names no phase. -/
def leafPhase : Diagnostic → Phase
  | lexical .. => .lexical
  | unexpected .. | expected .. => .syntactic
  | runtime .. => .runtime
  | _ => .none

mutual

/-- What a diagnostic comes down to without traces, contexts and lists. -/
def leaves : Diagnostic → List Diagnostic
  | traced inner | wrapped _ inner => inner.leaves
  | list items => leavesAll items
  | d => [d]

def leavesAll : List Diagnostic → List Diagnostic
  | [] => []
  | d :: ds => d.leaves ++ leavesAll ds

end

theorem leavesAll_eq (ds : List Diagnostic) : leavesAll ds = ds.flatMap leaves := by
  induction ds with
  | nil => rfl
  | cons d ds ih => rw [leavesAll, ih, List.flatMap_cons]

theorem worstPhase_isWorst {ds : List Diagnostic} (each : ∀ d ∈ ds, d.phase.IsWorst (d.leaves.map leafPhase)) :
    (worstPhase ds).IsWorst ((leavesAll ds).map leafPhase) := by
  induction ds with
  | nil => exact Phase.isWorst_nil
  | cons d ds ih =>
    obtain ⟨here, others⟩ := List.forall_mem_cons.mp each
    rw [worstPhase_cons, leavesAll, List.map_append]
    exact here.append (ih others)

theorem phase_isWorst (d : Diagnostic) : d.phase.IsWorst (d.leaves.map leafPhase) := by
  induction d using Diagnostic.inductionOn with
  | absent | plain | lexical | unexpected | expected | runtime =>
    rw [phase_of_complaint rfl]
    exact Phase.isWorst_singleton _
  | traced inner ih =>
    rw [phase_traced]
    exact ih
  | wrapped context inner ih =>
    rw [phase_wrapped]
    exact ih
  | list items ih =>
    rw [phase_list]
    exact worstPhase_isWorst ih

/-- The second diagnostic is the first one with traces and contexts put in or taken out anywhere, and with
lists reordered or opened into the lists around them. -/
inductive Rearranges : Diagnostic → Diagnostic → Prop where
  | refl : Rearranges d d
  | symm : Rearranges d e → Rearranges e d
  | trans : Rearranges d e → Rearranges e f → Rearranges d f
  | trace : Rearranges d (.traced d)
  | context (text : String) : Rearranges d (.wrapped text d)
  | reorder : ds.Perm es → Rearranges (.list ds) (.list es)
  | flatten : Rearranges (.list (before ++ .list inside :: after)) (.list (before ++ inside ++ after))
  | traced : Rearranges d e → Rearranges (.traced d) (.traced e)
  | wrapped : Rearranges d e → Rearranges (.wrapped text d) (.wrapped text e)
  | item : Rearranges d e → Rearranges (.list (before ++ d :: after)) (.list (before ++ e :: after))

theorem Rearranges.leaves_perm {d e : Diagnostic} (rearranges : d.Rearranges e) : d.leaves.Perm e.leaves := by
  induction rearranges with
  | refl => exact List.Perm.refl _
  | symm _ ih => exact ih.symm
  | trans _ _ first second => exact first.trans second
  | trace | context => exact List.Perm.refl _
  | traced _ ih | wrapped _ ih => exact ih
  | reorder permuted =>
    simp only [leaves, leavesAll_eq]
    exact permuted.flatMap_right leaves
  | flatten => simp [leaves, leavesAll_eq]
  | item _ ih =>
    simp only [leaves, leavesAll_eq, List.flatMap_append, List.flatMap_cons]
    exact (ih.append_right _).append_left _

theorem Rearranges.phase_eq {d e : Diagnostic} (rearranges : d.Rearranges e) : d.phase = e.phase := by
  refine d.phase_isWorst.unique e.phase_isWorst fun p => ?_
  exact (rearranges.leaves_perm.map leafPhase).mem_iff

/-- A trace may be there already, or have nothing to go around. -/
theorem rearranges_trace (d : Diagnostic) : d.Rearranges d.trace := by
  cases d with
  | absent | traced => exact .refl
  | _ => exact .trace

/-- The phase of a diagnostic is the most severe one among its leaves, and `none` without leaves. So it stays the
same when traces and contexts are put around parts of it, or when its lists are reordered or opened into the
lists around them; and one list after another is as severe as the more severe of the two. -/
theorem phase_is_worst_leaf (d : Diagnostic) :
    (∀ leaf ∈ d.leaves, leaf.leafPhase.rank ≤ d.phase.rank) ∧
    ((∃ leaf ∈ d.leaves, leaf.leafPhase = d.phase) ∨ d.leaves = [] ∧ d.phase = .none) ∧
    (∀ e, d.Rearranges e → e.phase = d.phase) ∧
    (d.Rearranges d.trace ∧ ∀ text, d.Rearranges (.wrapped text d)) ∧
    ∀ ds es : List Diagnostic,
      (list (ds ++ es)).phase.rank = max (list ds).phase.rank (list es).phase.rank := by
  obtain ⟨bound, attained⟩ := d.phase_isWorst
  refine ⟨?_, ?_, fun e rearranges => rearranges.phase_eq.symm, ?_, ?_⟩
  · intro leaf member
    exact bound _ (List.mem_map_of_mem member)
  · rcases attained with found | ⟨none, phase⟩
    · exact .inl (List.mem_map.mp found)
    · exact .inr ⟨List.map_eq_nil_iff.mp none, phase⟩
  · exact ⟨d.rearranges_trace, .context⟩
  · intro ds es
    rw [phase_list, phase_list, phase_list, worstPhase_append, Phase.rank_worst]

/-- A traced list inside another one, beside a diagnostic that is not there. -/
theorem phase_is_worst_leaf_nested :
    let d := wrapped "reading" (list [absent, traced (list [lexical default "bad"]), plain "lost"])
    lexical default "bad" ∈ d.leaves ∧ (lexical default "bad").leafPhase.rank ≤ d.phase.rank ∧
    (list [plain "lost", lexical default "bad", absent]).phase = d.phase := by
  intro d
  obtain ⟨bound, -, unchanged, -, -⟩ := phase_is_worst_leaf d
  have member : lexical default "bad" ∈ d.leaves := by simp [d, leaves, leavesAll]
  have opened : Rearranges (list ([absent] ++ list [lexical default "bad"] :: [plain "lost"]))
      (list ([absent] ++ [lexical default "bad"] ++ [plain "lost"])) := .flatten
  have untraced : Rearranges (list ([absent] ++ traced (list [lexical default "bad"]) :: [plain "lost"]))
      (list ([absent] ++ list [lexical default "bad"] :: [plain "lost"])) := .item (.symm .trace)
  have turned : Rearranges (list [absent, lexical default "bad", plain "lost"])
      (list [plain "lost", lexical default "bad", absent]) := .reorder (List.reverse_perm _).symm
  exact ⟨member, bound _ member,
    unchanged _ (.trans (.symm (.context _)) (.trans untraced (.trans opened turned)))⟩

end Diagnostic

end LoxLang

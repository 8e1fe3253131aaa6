import LoxLang.Proofs.Grammar
import LoxLang.Proofs.Tree.Form

/-! The shape of a tree: its nodes with the texts in them, without places and without the tokens that do not
show. A printed tree is the text of a form, and the forms of two legible trees are equal just when the trees
have the same shape: operators, names and literals are told apart by how they begin. -/
namespace LoxLang

theorem map_eq_iff_forall₂ {f : α → β} {R : α → α → Prop} {first second : List α}
    (each : ∀ a ∈ first, ∀ b ∈ second, (f a = f b ↔ R a b)) :
    first.map f = second.map f ↔ List.Forall₂ R first second := by
  induction first generalizing second with
  | nil => cases second <;> simp
  | cons a first ih =>
    cases second with
    | nil => simp
    | cons b second =>
      have later := ih fun a here b there => each a (List.mem_cons_of_mem _ here) b (List.mem_cons_of_mem _ there)
      rw [List.map_cons, List.map_cons, List.cons.injEq, List.forall₂_cons, later,
        each a List.mem_cons_self b List.mem_cons_self]

structure IsName (text : String) : Prop where
  spelled : ∃ c more, text.toList = c :: more ∧ Text.startsWord c = true ∧
    ∀ d ∈ more, Piece.continuesWord d = true
  unreserved : ∀ kind, (text, kind) ∉ TokenKind.keywords

/-- A word that could not begin an identifier, such as an operator or a number. -/
structure IsMark (text : String) : Prop where
  word : Form.Word text
  begins : ∀ c ∈ text.toList.head?, Text.startsWord c = false

theorem delimiter_continues (delimiter : c ∈ Form.delimiters) : Piece.continuesWord c = false := by
  simp only [Form.delimiters, List.mem_cons, List.not_mem_nil, or_false] at delimiter
  rcases delimiter with rfl | rfl | rfl | rfl <;> decide +kernel

theorem IsName.word (name : IsName text) : Form.Word text := by
  obtain ⟨c, more, spelled, starts, inside⟩ := name.spelled
  have continues : ∀ d ∈ c :: more, Piece.continuesWord d = true :=
    List.forall_mem_cons.mpr ⟨by simp [Piece.continuesWord, starts], inside⟩
  rw [← spelled] at continues
  refine ⟨by simp [spelled], fun d member delimiter => ?_⟩
  simpa [delimiter_continues delimiter] using continues d member

theorem IsMark.not_name (mark : IsMark text) : ¬ IsName text := by
  intro name
  obtain ⟨c, more, spelled, starts, _⟩ := name.spelled
  simp [mark.begins c (by simp [spelled])] at starts

/-- The heads that name a node begin with a letter, so no operator is one of them. -/
theorem IsMark.ne_head (mark : IsMark text) : ∀ head ∈ ["group", "assign", "call"], text ≠ head := by
  rintro head member rfl
  have letters : ∀ head ∈ ["group", "assign", "call"], head.toList.head?.any Text.startsWord = true := by
    decide +kernel
  have starts := letters text member
  cases first : text.toList.head? with
  | none => simp [first] at starts
  | some c => simp [first, mark.begins c first] at starts

namespace Expr

/-- The expressions have the same nodes with the same operators, names and numbers of arguments, and their
literals have the same text. -/
inductive SameShape : Expr → Expr → Prop where
  | literal {token token' : Token} : value.text? = some text → value'.text? = some text →
      SameShape (.literal value token) (.literal value' token')
  | grouping : SameShape inside inside' → SameShape (.grouping inside) (.grouping inside')
  | unary : operator.lexeme = operator'.lexeme → SameShape right right' →
      SameShape (.unary operator right) (.unary operator' right')
  | binary : SameShape left left' → operator.lexeme = operator'.lexeme → SameShape right right' →
      SameShape (.binary left operator right) (.binary left' operator' right')
  | var : name.lexeme = name'.lexeme → SameShape (.var name) (.var name')
  | assign : name.lexeme = name'.lexeme → SameShape value value' →
      SameShape (.assign name value) (.assign name' value')
  | call : SameShape callee callee' → List.Forall₂ SameShape arguments arguments' →
      SameShape (.call callee paren arguments) (.call callee' paren' arguments')

mutual

def form : Expr → Form
  | missing => .atom ""
  | literal value _ => .atom (value.text?.getD "")
  | grouping inner => .node "group" [inner.form]
  | unary operator right => .node operator.lexeme [right.form]
  | binary left operator right => .node operator.lexeme [left.form, right.form]
  | var name => .atom name.lexeme
  | assign name value => .node "assign" [.atom name.lexeme, .atom "=", value.form]
  | call callee _ arguments => .node "call" (callee.form :: formAll arguments)

def formAll : List Expr → List Form
  | [] => []
  | e :: es => e.form :: formAll es

end

theorem formAll_eq (es : List Expr) : formAll es = es.map form := by
  induction es with
  | nil => rfl
  | cons e es ih => rw [formAll, ih, List.map_cons]

mutual

/-- The texts in the expression are words, and those of names, operators and literals differ. -/
def Legible : Expr → Prop
  | missing => False
  | literal value _ => ∃ text, value.text? = some text ∧ Form.Word text ∧ ¬ IsName text
  | grouping inner => inner.Legible
  | unary operator right => IsMark operator.lexeme ∧ right.Legible
  | binary left operator right => IsMark operator.lexeme ∧ left.Legible ∧ right.Legible
  | var name => IsName name.lexeme
  | assign name value => IsName name.lexeme ∧ value.Legible
  | call callee _ arguments => callee.Legible ∧ LegibleAll arguments

def LegibleAll : List Expr → Prop
  | [] => True
  | e :: es => e.Legible ∧ LegibleAll es

end

theorem legibleAll_iff {es : List Expr} : LegibleAll es ↔ ∀ e ∈ es, e.Legible := by
  induction es with
  | nil => simp [LegibleAll]
  | cons e es ih => simp [LegibleAll, ih]

theorem printedAll_forms {es : List Expr} (each : ∀ e ∈ es, e.printed = .ok e.form.text) :
    printedAll es = .ok ((formAll es).map Form.text) := by
  induction es with
  | nil => rfl
  | cons e es ih =>
    obtain ⟨here, later⟩ := List.forall_mem_cons.mp each
    rw [printedAll, here, ih later]
    rfl

/-- The printer writes the form, and cannot fail on it. -/
theorem Legible.printed_eq {e : Expr} (legible : e.Legible) : e.printed = .ok e.form.text := by
  induction e using Expr.inductionOn with
  | missing => exact legible.elim
  | literal value token =>
    obtain ⟨text, shown, _⟩ := legible
    simp [printed, form, shown]
  | grouping inner ih =>
    rw [printed, ih legible, form, Form.text_node]
    rfl
  | unary operator right ih =>
    rw [printed, ih legible.2, form, Form.text_node]
    rfl
  | binary left operator right left_ih right_ih =>
    rw [printed, left_ih legible.2.1, right_ih legible.2.2, form, Form.text_node]
    rfl
  | var name => simp [printed, form]
  | assign name value ih =>
    rw [printed, ih legible.2, form, Form.text_node]
    simp only [List.map_cons, Form.text_atom]
    rfl
  | call callee paren arguments callee_ih arguments_ih =>
    have each := fun e member => arguments_ih e member (legibleAll_iff.mp legible.2 e member)
    rw [printed, callee_ih legible.1, printedAll_forms each, form, Form.text_node]
    rfl

theorem Legible.form_legible {e : Expr} (legible : e.Legible) : e.form.Legible := by
  induction e using Expr.inductionOn with
  | missing => exact legible.elim
  | literal value token =>
    obtain ⟨text, shown, word, _⟩ := legible
    rw [form, shown]
    exact .atom word
  | grouping inner ih => exact .node (by decide +kernel) (by simpa using ih legible)
  | unary operator right ih => exact .node legible.1.word (by simpa using ih legible.2)
  | binary left operator right left_ih right_ih =>
    exact .node legible.1.word (by simpa using ⟨left_ih legible.2.1, right_ih legible.2.2⟩)
  | var name => exact .atom (IsName.word legible)
  | assign name value ih =>
    exact .node (by decide +kernel)
      (by simpa using ⟨.atom legible.1.word, .atom (by decide +kernel), ih legible.2⟩)
  | call callee paren arguments callee_ih arguments_ih =>
    refine .node (by decide +kernel) (List.forall_mem_cons.mpr ⟨callee_ih legible.1, ?_⟩)
    rw [formAll_eq, List.forall_mem_map]
    exact fun e member => arguments_ih e member (legibleAll_iff.mp legible.2 e member)

/-- Legible expressions with the same form have the same shape. -/
theorem Legible.form_eq_iff {e d : Expr} (here : e.Legible) (there : d.Legible) :
    e.form = d.form ↔ e.SameShape d := by
  induction e using Expr.inductionOn generalizing d with
  | missing => exact here.elim
  | literal value token =>
    obtain ⟨text, shown, _, unnamed⟩ := here
    cases d with
    | missing => exact there.elim
    | literal value' token' =>
      obtain ⟨text', shown', _⟩ := there
      simp only [form, shown, shown', Option.getD_some, Form.atom.injEq]
      constructor
      · rintro rfl
        exact .literal shown shown'
      · rintro ⟨same, same'⟩
        exact Option.some.inj ((shown.symm.trans same).trans (same'.symm.trans shown'))
    | var name =>
      have differ : text ≠ name.lexeme := fun same => unnamed (same ▸ there)
      exact iff_of_false (by simp [form, shown, differ]) nofun
    | grouping | unary | binary | assign | call => exact iff_of_false (by simp [form]) nofun
  | grouping inner ih =>
    cases d with
    | missing => exact there.elim
    | grouping inner' =>
      simp only [form, Form.node.injEq, List.cons.injEq, and_true, true_and, ih here (d := inner') there]
      exact ⟨.grouping, fun (.grouping same) => same⟩
    | unary | binary => exact iff_of_false (by simp [form, (there.1.ne_head "group" (by simp)).symm]) nofun
    | literal | var | assign | call => exact iff_of_false (by simp [form]) nofun
  | unary operator right ih =>
    cases d with
    | missing => exact there.elim
    | unary operator' right' =>
      simp only [form, Form.node.injEq, List.cons.injEq, and_true, ih here.2 there.2]
      exact ⟨fun ⟨operators, same⟩ => .unary operators same, fun (.unary operators same) => ⟨operators, same⟩⟩
    | grouping => exact iff_of_false (by simp [form, here.1.ne_head "group" (by simp)]) nofun
    | assign => exact iff_of_false (by simp [form, here.1.ne_head "assign" (by simp)]) nofun
    | call => exact iff_of_false (by simp [form, here.1.ne_head "call" (by simp)]) nofun
    | literal | var | binary => exact iff_of_false (by simp [form]) nofun
  | binary left operator right left_ih right_ih =>
    cases d with
    | missing => exact there.elim
    | binary left' operator' right' =>
      simp only [form, Form.node.injEq, List.cons.injEq, and_true, left_ih here.2.1 there.2.1,
        right_ih here.2.2 there.2.2]
      exact ⟨fun ⟨operators, lefts, rights⟩ => .binary lefts operators rights,
        fun (.binary lefts operators rights) => ⟨operators, lefts, rights⟩⟩
    | grouping => exact iff_of_false (by simp [form, here.1.ne_head "group" (by simp)]) nofun
    | assign => exact iff_of_false (by simp [form, here.1.ne_head "assign" (by simp)]) nofun
    | call => exact iff_of_false (by simp [form, here.1.ne_head "call" (by simp)]) nofun
    | literal | var | unary => exact iff_of_false (by simp [form]) nofun
  | var name =>
    cases d with
    | missing => exact there.elim
    | var name' =>
      simp only [form, Form.atom.injEq]
      exact ⟨.var, fun (.var same) => same⟩
    | literal value token =>
      obtain ⟨text, shown, _, unnamed⟩ := there
      have differ : name.lexeme ≠ text := fun same => unnamed (same ▸ here)
      exact iff_of_false (by simp [form, shown, differ]) nofun
    | grouping | unary | binary | assign | call => exact iff_of_false (by simp [form]) nofun
  | assign name value ih =>
    cases d with
    | missing => exact there.elim
    | assign name' value' =>
      simp only [form, Form.node.injEq, List.cons.injEq, and_true, true_and, Form.atom.injEq, ih here.2 there.2]
      exact ⟨fun ⟨names, same⟩ => .assign names same, fun (.assign names same) => ⟨names, same⟩⟩
    | unary | binary => exact iff_of_false (by simp [form, (there.1.ne_head "assign" (by simp)).symm]) nofun
    | literal | var | grouping | call => exact iff_of_false (by simp [form]) nofun
  | call callee paren arguments callee_ih arguments_ih =>
    cases d with
    | missing => exact there.elim
    | call callee' paren' arguments' =>
      have rows := map_eq_iff_forall₂ fun e member d member' => arguments_ih e member
        (legibleAll_iff.mp here.2 e member) (legibleAll_iff.mp there.2 d member')
      simp only [form, Form.node.injEq, List.cons.injEq, true_and, formAll_eq, callee_ih here.1 there.1, rows]
      exact ⟨fun ⟨same, all⟩ => .call same all, fun (.call same all) => ⟨same, all⟩⟩
    | unary | binary => exact iff_of_false (by simp [form, (there.1.ne_head "call" (by simp)).symm]) nofun
    | literal | var | grouping | assign => exact iff_of_false (by simp [form]) nofun

end Expr

namespace Stmt

/-- The statements have the same nodes, with and without the same initializers and `else` branches, the same
names, and expressions of the same shape. -/
inductive SameShape : Stmt → Stmt → Prop where
  | expression : e.SameShape e' → SameShape (.expression e) (.expression e')
  | print : e.SameShape e' → SameShape (.print e) (.print e')
  | declare : name.lexeme = name'.lexeme → SameShape (.declare name) (.declare name')
  | define : name.lexeme = name'.lexeme → initializer.SameShape initializer' →
      SameShape (.define name initializer) (.define name' initializer')
  | block : List.Forall₂ SameShape body body' → SameShape (.block brace body) (.block brace' body')
  | ifThen : condition.SameShape condition' → SameShape thenBranch thenBranch' →
      SameShape (.ifThen condition thenBranch) (.ifThen condition' thenBranch')
  | ifElse : condition.SameShape condition' → SameShape thenBranch thenBranch' →
      SameShape elseBranch elseBranch' →
      SameShape (.ifElse condition thenBranch elseBranch) (.ifElse condition' thenBranch' elseBranch')
  | loop : condition.SameShape condition' → SameShape body body' →
      SameShape (.loop condition body) (.loop condition' body')

mutual

def form : Stmt → Form
  | missing => .atom ""
  | expression expr => .node ";" [expr.form]
  | print expr => .node "print" [expr.form]
  | declare name => .node "var" [.atom name.lexeme]
  | define name initializer => .node "var" [.atom name.lexeme, .atom "=", initializer.form]
  | block _ body => .node "block" (formAll body)
  | ifThen condition thenBranch => .node "if" [condition.form, thenBranch.form]
  | ifElse condition thenBranch elseBranch =>
    .node "if" [condition.form, thenBranch.form, .atom "else", elseBranch.form]
  | loop condition body => .node "while" [condition.form, body.form]
  | bad _ _ => .atom "<error>"

def formAll : List Stmt → List Form
  | [] => []
  | s :: ss => s.form :: formAll ss

end

theorem formAll_eq (ss : List Stmt) : formAll ss = ss.map form := by
  induction ss with
  | nil => rfl
  | cons s ss ih => rw [formAll, ih, List.map_cons]

mutual

/-- The statement was parsed, and its names and expressions are legible. -/
def Legible : Stmt → Prop
  | missing | bad .. => False
  | expression expr | print expr => expr.Legible
  | declare name => IsName name.lexeme
  | define name initializer => IsName name.lexeme ∧ initializer.Legible
  | block _ body => LegibleAll body
  | ifThen condition thenBranch => condition.Legible ∧ thenBranch.Legible
  | ifElse condition thenBranch elseBranch =>
    condition.Legible ∧ thenBranch.Legible ∧ elseBranch.Legible
  | loop condition body => condition.Legible ∧ body.Legible

def LegibleAll : List Stmt → Prop
  | [] => True
  | s :: ss => s.Legible ∧ LegibleAll ss

end

theorem legibleAll_iff {ss : List Stmt} : LegibleAll ss ↔ ∀ s ∈ ss, s.Legible := by
  induction ss with
  | nil => simp [LegibleAll]
  | cons s ss ih => simp [LegibleAll, ih]

theorem printedAll_forms {ss : List Stmt} (each : ∀ s ∈ ss, s.printed = .ok s.form.text) :
    printedAll ss = .ok ((formAll ss).map Form.text) := by
  induction ss with
  | nil => rfl
  | cons s ss ih =>
    obtain ⟨here, later⟩ := List.forall_mem_cons.mp each
    rw [printedAll, here, ih later]
    rfl

theorem Legible.printed_eq {s : Stmt} (legible : s.Legible) : s.printed = .ok s.form.text := by
  induction s using Stmt.inductionOn with
  | missing | bad => exact legible.elim
  | expression expr | print expr =>
    rw [printed, Expr.Legible.printed_eq legible, form, Form.text_node]
    rfl
  | declare name => simp [printed, form]
  | define name initializer =>
    rw [printed, legible.2.printed_eq, form, Form.text_node]
    simp only [List.map_cons, Form.text_atom]
    rfl
  | block brace body ih =>
    have each := fun s member => ih s member (legibleAll_iff.mp legible s member)
    rw [printed, printedAll_forms each, form, Form.text_node]
    rfl
  | ifThen condition thenBranch ih =>
    rw [printed, legible.1.printed_eq, ih legible.2, form, Form.text_node]
    rfl
  | ifElse condition thenBranch elseBranch then_ih else_ih =>
    rw [printed, legible.1.printed_eq, then_ih legible.2.1, else_ih legible.2.2, form, Form.text_node]
    simp only [List.map_cons, Form.text_atom]
    rfl
  | loop condition body ih =>
    rw [printed, legible.1.printed_eq, ih legible.2, form, Form.text_node]
    rfl

theorem Legible.form_legible {s : Stmt} (legible : s.Legible) : s.form.Legible := by
  induction s using Stmt.inductionOn with
  | missing | bad => exact legible.elim
  | expression expr | print expr =>
    exact .node (by decide +kernel) (by simpa using Expr.Legible.form_legible legible)
  | declare name => exact .node (by decide +kernel) (by simpa using .atom (IsName.word legible))
  | define name initializer =>
    exact .node (by decide +kernel)
      (by simpa using ⟨.atom legible.1.word, .atom (by decide +kernel), legible.2.form_legible⟩)
  | block brace body ih =>
    refine .node (by decide +kernel) ?_
    rw [formAll_eq, List.forall_mem_map]
    exact fun s member => ih s member (legibleAll_iff.mp legible s member)
  | ifThen condition thenBranch ih =>
    exact .node (by decide +kernel) (by simpa using ⟨legible.1.form_legible, ih legible.2⟩)
  | ifElse condition thenBranch elseBranch then_ih else_ih =>
    exact .node (by decide +kernel) (by
      simpa using ⟨legible.1.form_legible, then_ih legible.2.1, .atom (by decide +kernel), else_ih legible.2.2⟩)
  | loop condition body ih =>
    exact .node (by decide +kernel) (by simpa using ⟨legible.1.form_legible, ih legible.2⟩)

/-- Legible statements with the same form have the same shape. -/
theorem Legible.form_eq_iff {s r : Stmt} (here : s.Legible) (there : r.Legible) :
    s.form = r.form ↔ s.SameShape r := by
  induction s using Stmt.inductionOn generalizing r with
  | missing | bad => exact here.elim
  | expression expr =>
    cases r with
    | missing | bad => exact there.elim
    | expression expr' =>
      simp only [form, Form.node.injEq, List.cons.injEq, and_true, true_and, Expr.Legible.form_eq_iff here there]
      exact ⟨.expression, fun (.expression same) => same⟩
    | _ => exact iff_of_false (by simp [form]) nofun
  | print expr =>
    cases r with
    | missing | bad => exact there.elim
    | print expr' =>
      simp only [form, Form.node.injEq, List.cons.injEq, and_true, true_and, Expr.Legible.form_eq_iff here there]
      exact ⟨.print, fun (.print same) => same⟩
    | _ => exact iff_of_false (by simp [form]) nofun
  | declare name =>
    cases r with
    | missing | bad => exact there.elim
    | declare name' =>
      simp only [form, Form.node.injEq, List.cons.injEq, and_true, true_and, Form.atom.injEq]
      exact ⟨.declare, fun (.declare same) => same⟩
    | _ => exact iff_of_false (by simp [form]) nofun
  | define name initializer =>
    cases r with
    | missing | bad => exact there.elim
    | define name' initializer' =>
      simp only [form, Form.node.injEq, List.cons.injEq, and_true, true_and, Form.atom.injEq,
        here.2.form_eq_iff there.2]
      exact ⟨fun ⟨names, same⟩ => .define names same, fun (.define names same) => ⟨names, same⟩⟩
    | _ => exact iff_of_false (by simp [form]) nofun
  | block brace body ih =>
    cases r with
    | missing | bad => exact there.elim
    | block brace' body' =>
      have rows := map_eq_iff_forall₂ fun s member r member' => ih s member
        (legibleAll_iff.mp here s member) (legibleAll_iff.mp there r member')
      simp only [form, Form.node.injEq, true_and, formAll_eq, rows]
      exact ⟨.block, fun (.block all) => all⟩
    | _ => exact iff_of_false (by simp [form]) nofun
  | ifThen condition thenBranch ih =>
    cases r with
    | missing | bad => exact there.elim
    | ifThen condition' thenBranch' =>
      simp only [form, Form.node.injEq, List.cons.injEq, and_true, true_and, here.1.form_eq_iff there.1,
        ih here.2 there.2]
      exact ⟨fun ⟨tested, branch⟩ => .ifThen tested branch, fun (.ifThen tested branch) => ⟨tested, branch⟩⟩
    | _ => exact iff_of_false (by simp [form]) nofun
  | ifElse condition thenBranch elseBranch then_ih else_ih =>
    cases r with
    | missing | bad => exact there.elim
    | ifElse condition' thenBranch' elseBranch' =>
      simp only [form, Form.node.injEq, List.cons.injEq, and_true, true_and, here.1.form_eq_iff there.1,
        then_ih here.2.1 there.2.1, else_ih here.2.2 there.2.2]
      exact ⟨fun ⟨tested, first, second⟩ => .ifElse tested first second,
        fun (.ifElse tested first second) => ⟨tested, first, second⟩⟩
    | _ => exact iff_of_false (by simp [form]) nofun
  | loop condition body ih =>
    cases r with
    | missing | bad => exact there.elim
    | loop condition' body' =>
      simp only [form, Form.node.injEq, List.cons.injEq, and_true, true_and, here.1.form_eq_iff there.1,
        ih here.2 there.2]
      exact ⟨fun ⟨tested, again⟩ => .loop tested again, fun (.loop tested again) => ⟨tested, again⟩⟩
    | _ => exact iff_of_false (by simp [form]) nofun

end Stmt

end LoxLang

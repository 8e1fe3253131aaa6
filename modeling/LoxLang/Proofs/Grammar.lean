import LoxLang.Tree
import Mathlib.Data.List.Forall2

/-! The grammar, said of trees and not of the parser: the row of tokens that a tree stands for, the
trees that have the shape the grammar gives, and how deeply a tree nests. -/
namespace LoxLang

/-- Induction over an expression, where the arguments of a call come one by one. -/
@[elab_as_elim]
theorem Expr.inductionOn {motive : Expr → Prop} (e : Expr) (missing : motive .missing)
    (literal : ∀ value token, motive (.literal value token))
    (grouping : ∀ inner, motive inner → motive (.grouping inner))
    (unary : ∀ operator right, motive right → motive (.unary operator right))
    (binary : ∀ left operator right, motive left → motive right →
      motive (.binary left operator right))
    (var : ∀ name, motive (.var name))
    (assign : ∀ name value, motive value → motive (.assign name value))
    (call : ∀ callee paren arguments, motive callee → (∀ e ∈ arguments, motive e) →
      motive (.call callee paren arguments)) : motive e := by
  refine @Expr.rec motive (fun es => ∀ e ∈ es, motive e) missing literal grouping unary binary var
    assign call ?_ ?_ e
  · intro e member
    contradiction
  · intro e es here later d member
    rcases List.mem_cons.mp member with rfl | member
    · exact here
    · exact later d member

/-- Induction over a statement, where the statements of a block come one by one. -/
@[elab_as_elim]
theorem Stmt.inductionOn {motive : Stmt → Prop} (s : Stmt) (missing : motive .missing)
    (expression : ∀ expr, motive (.expression expr))
    (print : ∀ expr, motive (.print expr))
    (declare : ∀ name, motive (.declare name))
    (define : ∀ name initializer, motive (.define name initializer))
    (block : ∀ brace body, (∀ s ∈ body, motive s) → motive (.block brace body))
    (ifThen : ∀ condition thenBranch, motive thenBranch → motive (.ifThen condition thenBranch))
    (ifElse : ∀ condition thenBranch elseBranch, motive thenBranch → motive elseBranch →
      motive (.ifElse condition thenBranch elseBranch))
    (loop : ∀ condition body, motive body → motive (.loop condition body))
    (bad : ∀ start error, motive (.bad start error)) : motive s := by
  refine @Stmt.rec motive (fun ss => ∀ s ∈ ss, motive s) missing expression print declare define
    block ifThen ifElse loop bad ?_ ?_ s
  · intro s member
    contradiction
  · intro s ss here later t member
    rcases List.mem_cons.mp member with rfl | member
    · exact here
    · exact later t member

/-- A place in the row of tokens that a tree stands for: a token that the tree keeps, or one of which
the tree only says that it is there. -/
inductive Leaf where
  | kept (token : Token)
  | fixed (kind : TokenKind)

namespace Leaf

def kind : Leaf → TokenKind
  | kept token => token.kind
  | fixed kind => kind

@[simp] theorem kind_kept (token : Token) : (kept token).kind = token.kind := rfl

@[simp] theorem kind_fixed (kind : TokenKind) : (fixed kind).kind = kind := rfl

/-- A kept token stands at its place itself, any other place has some token of its kind. -/
def Matches : Leaf → Token → Prop
  | kept token, t => token = t
  | fixed kind, t => t.kind = kind

theorem Matches.kind_eq {leaf : Leaf} (here : leaf.Matches t) : t.kind = leaf.kind := by
  cases leaf with
  | kept token => exact congrArg Token.kind here.symm
  | fixed kind => exact here

end Leaf

/-- The tokens are those of the leaves, place by place. -/
def Spells (leaves : List Leaf) (tokens : List Token) : Prop :=
  List.Forall₂ Leaf.Matches leaves tokens

/-- The tokens begin with those of the leaves, and `rest` comes after them. -/
def Reads (leaves : List Leaf) (tokens rest : List Token) : Prop :=
  ∃ taken, tokens = taken ++ rest ∧ Spells leaves taken

@[simp] theorem reads_nil : Reads [] tokens rest ↔ tokens = rest := by
  constructor
  · rintro ⟨taken, rfl, spelled⟩
    cases spelled
    rfl
  · rintro rfl
    exact ⟨[], rfl, .nil⟩

@[simp] theorem reads_cons : Reads (leaf :: leaves) tokens rest ↔
    ∃ t more, tokens = t :: more ∧ leaf.Matches t ∧ Reads leaves more rest := by
  constructor
  · rintro ⟨taken, rfl, spelled⟩
    cases spelled with
    | cons here later => exact ⟨_, _, rfl, here, _, rfl, later⟩
  · rintro ⟨t, more, rfl, here, taken, rfl, later⟩
    exact ⟨t :: taken, rfl, .cons here later⟩

/-- Leaves may be read in two goes; `mid` is what the first one leaves to the second. -/
@[simp] theorem reads_append : Reads (first ++ second) tokens rest ↔
    ∃ mid, Reads first tokens mid ∧ Reads second mid rest := by
  induction first generalizing tokens with
  | nil => simp
  | cons leaf leaves ih =>
    simp only [List.cons_append, reads_cons, ih]
    constructor
    · rintro ⟨t, more, rfl, here, mid, before, after⟩
      exact ⟨mid, ⟨t, more, rfl, here, before⟩, after⟩
    · rintro ⟨mid, ⟨t, more, rfl, here, before⟩, after⟩
      exact ⟨t, more, rfl, here, mid, before, after⟩

theorem reads_to_end : Reads leaves tokens [] ↔ Spells leaves tokens := by
  simp [Reads]

theorem Reads.weaken (reading : Reads leaves tokens rest) (more : List Token) :
    Reads leaves (tokens ++ more) (rest ++ more) := by
  obtain ⟨taken, rfl, spelled⟩ := reading
  exact ⟨taken, List.append_assoc .., spelled⟩

namespace TokenKind

/-- How tightly an infix operator binds; zero for everything that is none. -/
def precedence : TokenKind → Nat
  | equalEqual | bangEqual => 1
  | greater | greaterEqual | less | lessEqual => 2
  | plus | minus => 3
  | star | slash => 4
  | _ => 0

theorem precedence_le (kind : TokenKind) : kind.precedence ≤ 4 := by
  cases kind <;> simp [precedence]

end TokenKind

/-- The value of a literal that is written with the token. -/
def Token.constant? (t : Token) : Option Value :=
  match t.kind with
  | .falseWord => some (.bool false)
  | .trueWord => some (.bool true)
  | .nilWord => some .nil
  | .number | .string => some t.literal
  | _ => none

namespace Expr

mutual

def yield : Expr → List Leaf
  | missing => []
  | literal _ token => [.kept token]
  | grouping inner => .fixed .leftParen :: (inner.yield ++ [.fixed .rightParen])
  | unary operator right => .kept operator :: right.yield
  | binary left operator right => left.yield ++ .kept operator :: right.yield
  | var name => [.kept name]
  | assign name value => .kept name :: .fixed .equal :: value.yield
  | call callee paren arguments =>
    callee.yield ++ .fixed .leftParen :: (yieldArguments arguments ++ [.kept paren])

def yieldArguments : List Expr → List Leaf
  | [] => []
  | e :: es => e.yield ++ yieldFurther es

def yieldFurther : List Expr → List Leaf
  | [] => []
  | e :: es => .fixed .comma :: (e.yield ++ yieldFurther es)

end

/-- How tightly an expression binds: assignments least, then the infix operators by precedence, then
unary operators, then calls and what needs no operator. -/
def rank : Expr → Nat
  | missing | assign .. => 0
  | binary _ operator _ => operator.kind.precedence
  | unary .. => 5
  | literal .. | grouping _ | var _ | call .. => 6

mutual

/-- The expression has the shape that the grammar gives: operators group from the left and by
precedence, a unary operator has a unary or called operand, only a called or primary expression is
called, and assignments stand where the grammar has an expression. -/
def Canonical : Expr → Prop
  | missing => False
  | literal value token => token.constant? = some value
  | grouping inner => inner.Canonical
  | unary operator right =>
    (operator.kind = .bang ∨ operator.kind = .minus) ∧ 5 ≤ right.rank ∧ right.Canonical
  | binary left operator right =>
    0 < operator.kind.precedence ∧ operator.kind.precedence ≤ left.rank ∧
      operator.kind.precedence < right.rank ∧ left.Canonical ∧ right.Canonical
  | var name => name.kind = .identifier
  | assign name value => name.kind = .identifier ∧ value.Canonical
  | call callee paren arguments =>
    6 ≤ callee.rank ∧ paren.kind = .rightParen ∧ arguments.length ≤ 255 ∧
      callee.Canonical ∧ CanonicalAll arguments

def CanonicalAll : List Expr → Prop
  | [] => True
  | e :: es => e.Canonical ∧ CanonicalAll es

end

mutual

/-- How deeply an expression nests: unary operators count, and so does every place below it where the
grammar has an expression. -/
def nesting : Expr → Nat
  | missing | literal .. | var _ => 0
  | grouping inner => inner.nesting + 1
  | unary _ right => right.nesting + 1
  | binary left _ right => max left.nesting right.nesting
  | assign _ value => value.nesting + 1
  | call callee _ arguments => max callee.nesting (nestingAll arguments)

/-- How deeply expressions nest that stand where the grammar has an expression. -/
def nestingAll : List Expr → Nat
  | [] => 0
  | e :: es => max (e.nesting + 1) (nestingAll es)

end

end Expr

namespace Stmt

mutual

def yield : Stmt → List Leaf
  | missing | bad .. => []
  | expression expr => expr.yield ++ [.fixed .semicolon]
  | print expr => .fixed .printWord :: (expr.yield ++ [.fixed .semicolon])
  | declare name => [.fixed .varWord, .kept name, .fixed .semicolon]
  | define name initializer =>
    .fixed .varWord :: .kept name :: .fixed .equal :: (initializer.yield ++ [.fixed .semicolon])
  | block brace body => .kept brace :: (yieldAll body ++ [.fixed .rightBrace])
  | ifThen condition thenBranch =>
    .fixed .ifWord :: .fixed .leftParen :: (condition.yield ++ .fixed .rightParen :: thenBranch.yield)
  | ifElse condition thenBranch elseBranch =>
    .fixed .ifWord :: .fixed .leftParen :: (condition.yield ++ .fixed .rightParen ::
      (thenBranch.yield ++ .fixed .elseWord :: elseBranch.yield))
  | loop condition body =>
    .fixed .whileWord :: .fixed .leftParen :: (condition.yield ++ .fixed .rightParen :: body.yield)

def yieldAll : List Stmt → List Leaf
  | [] => []
  | s :: ss => s.yield ++ yieldAll ss

end

/-- The statement ends in an `if` that an `else` after it would belong to. -/
def openEnded : Stmt → Bool
  | ifThen .. => true
  | ifElse _ _ elseBranch => elseBranch.openEnded
  | loop _ body => body.openEnded
  | _ => false

mutual

/-- The statement has the shape that the grammar gives, and every `else` belongs to the nearest `if`.
Variables are declared only where statements follow one another: in a program or in a block. -/
def Canonical (declares : Bool) : Stmt → Prop
  | missing | bad .. => False
  | expression expr | print expr => expr.Canonical
  | declare name => declares = true ∧ name.kind = .identifier
  | define name initializer =>
    declares = true ∧ name.kind = .identifier ∧ initializer.Canonical
  | block brace body => brace.kind = .leftBrace ∧ CanonicalAll body
  | ifThen condition thenBranch => condition.Canonical ∧ thenBranch.Canonical false
  | ifElse condition thenBranch elseBranch =>
    condition.Canonical ∧ thenBranch.Canonical false ∧ thenBranch.openEnded = false ∧
      elseBranch.Canonical false
  | loop condition body => condition.Canonical ∧ body.Canonical false

/-- Statements one after the other, as in a program or in a block. -/
def CanonicalAll : List Stmt → Prop
  | [] => True
  | s :: ss => s.Canonical true ∧ CanonicalAll ss

end

mutual

/-- How deeply a statement nests. A declaration of a variable does not count itself. -/
def nesting : Stmt → Nat
  | missing | bad .. | declare _ => 0
  | expression expr | print expr => expr.nesting + 2
  | define _ initializer => initializer.nesting + 1
  | block _ body => nestingAll body + 1
  | ifThen condition thenBranch => max (condition.nesting + 1) thenBranch.nesting + 1
  | ifElse condition thenBranch elseBranch =>
    max (condition.nesting + 1) (max thenBranch.nesting elseBranch.nesting) + 1
  | loop condition body => max (condition.nesting + 1) body.nesting + 1

def nestingAll : List Stmt → Nat
  | [] => 0
  | s :: ss => max s.nesting (nestingAll ss)

end

end Stmt

namespace TokenKind

def startsExpression (kind : TokenKind) : Bool :=
  [falseWord, trueWord, nilWord, number, string, identifier, leftParen, bang, minus].contains kind

def startsDeclaration (kind : TokenKind) : Bool :=
  kind.startsExpression || [ifWord, whileWord, printWord, leftBrace, varWord].contains kind

end TokenKind

theorem Token.constant_starts {t : Token} (constant : t.constant? = some value) :
    t.kind.startsExpression = true := by
  unfold constant? at constant
  split at constant <;> simp_all [TokenKind.startsExpression]

/-- One token is enough to see that an expression begins, which is all that the parser looks ahead. -/
theorem Expr.Canonical.starts {e : Expr} (canonical : e.Canonical) :
    ∃ leaf leaves, e.yield = leaf :: leaves ∧ leaf.kind.startsExpression = true := by
  induction e using Expr.inductionOn with
  | missing => exact canonical.elim
  | literal value token => exact ⟨_, _, rfl, Token.constant_starts canonical⟩
  | grouping inner => exact ⟨_, _, rfl, rfl⟩
  | unary operator right =>
    refine ⟨_, _, rfl, ?_⟩
    rcases canonical.1 with kind | kind <;> simp [Leaf.kind, kind, TokenKind.startsExpression]
  | binary left operator right ih =>
    obtain ⟨leaf, leaves, same, starts⟩ := ih canonical.2.2.2.1
    exact ⟨leaf, _, by rw [yield, same, List.cons_append], starts⟩
  | var name =>
    have kind : name.kind = .identifier := canonical
    exact ⟨_, _, rfl, by simp [Leaf.kind, kind, TokenKind.startsExpression]⟩
  | assign name value =>
    exact ⟨_, _, rfl, by simp [Leaf.kind, canonical.1, TokenKind.startsExpression]⟩
  | call callee paren arguments ih =>
    obtain ⟨leaf, leaves, same, starts⟩ := ih canonical.2.2.2.1
    exact ⟨leaf, _, by rw [yield, same, List.cons_append], starts⟩

/-- Where no declaration may stand, a statement does not begin with `var`, so the parser cannot mistake it for
one. -/
theorem Stmt.Canonical.starts {s : Stmt} (canonical : s.Canonical declares) :
    ∃ leaf leaves, s.yield = leaf :: leaves ∧ leaf.kind.startsDeclaration = true ∧
      (declares = false → leaf.kind ≠ .varWord) := by
  cases s with
  | missing | bad => exact canonical.elim
  | expression expr =>
    obtain ⟨leaf, leaves, same, starts⟩ := Expr.Canonical.starts canonical
    refine ⟨leaf, _, by rw [yield, same, List.cons_append], ?_, fun _ kind => ?_⟩
    · simp [TokenKind.startsDeclaration, starts]
    · simp [kind, TokenKind.startsExpression] at starts
  | block brace body =>
    exact ⟨_, _, rfl, by simp [Leaf.kind, canonical.1, TokenKind.startsDeclaration]⟩
  | declare name => exact ⟨_, _, rfl, rfl, fun inside => by simp [canonical.1] at inside⟩
  | define name initializer => exact ⟨_, _, rfl, rfl, fun inside => by simp [canonical.1] at inside⟩
  | print | ifThen | ifElse | loop => exact ⟨_, _, rfl, rfl, by simp [Leaf.kind]⟩

theorem Expr.canonicalAll_iff {es : List Expr} : CanonicalAll es ↔ ∀ e ∈ es, e.Canonical := by
  induction es with
  | nil => simp [CanonicalAll]
  | cons e es ih => simp [CanonicalAll, ih]

theorem Stmt.canonicalAll_iff {ss : List Stmt} : CanonicalAll ss ↔ ∀ s ∈ ss, s.Canonical true := by
  induction ss with
  | nil => simp [CanonicalAll]
  | cons s ss ih => simp [CanonicalAll, ih]

theorem Stmt.nestingAll_le {ss : List Stmt} : nestingAll ss ≤ room ↔ ∀ s ∈ ss, s.nesting ≤ room := by
  induction ss with
  | nil => simp [nestingAll]
  | cons s ss ih => rw [nestingAll, Nat.max_le, ih, List.forall_mem_cons]

theorem Expr.mem_yieldFurther {es : List Expr} (member : e ∈ es) (inside : leaf ∈ e.yield) :
    leaf ∈ yieldFurther es := by
  induction es with
  | nil => contradiction
  | cons d es ih =>
    rcases List.mem_cons.mp member with rfl | member
    · simp [yieldFurther, inside]
    · simp [yieldFurther, ih member]

theorem Expr.mem_yieldArguments {es : List Expr} (member : e ∈ es) (inside : leaf ∈ e.yield) :
    leaf ∈ yieldArguments es := by
  cases es with
  | nil => contradiction
  | cons d es =>
    rcases List.mem_cons.mp member with rfl | member
    · simp [yieldArguments, inside]
    · simp [yieldArguments, mem_yieldFurther member inside]

theorem Stmt.mem_yieldAll {ss : List Stmt} :
    leaf ∈ yieldAll ss ↔ ∃ s ∈ ss, leaf ∈ s.yield := by
  induction ss with
  | nil => simp [yieldAll]
  | cons s ss ih => simp [yieldAll, ih]

def Bare (leaves : List Leaf) : Prop :=
  ∀ leaf ∈ leaves, leaf.kind ≠ .eof

@[simp] theorem bare_nil : Bare [] := by simp [Bare]

@[simp] theorem bare_cons : Bare (leaf :: leaves) ↔ leaf.kind ≠ .eof ∧ Bare leaves := by simp [Bare]

@[simp] theorem bare_append : Bare (first ++ second) ↔ Bare first ∧ Bare second := by
  simp [Bare, or_imp, forall_and]

theorem Expr.bare_yieldFurther {es : List Expr} (each : ∀ e ∈ es, Bare e.yield) :
    Bare (yieldFurther es) := by
  induction es with
  | nil => exact bare_nil
  | cons e es ih =>
    simp only [List.forall_mem_cons] at each
    simp [yieldFurther, each.1, ih each.2]

theorem Expr.bare_yieldArguments {es : List Expr} (each : ∀ e ∈ es, Bare e.yield) :
    Bare (yieldArguments es) := by
  cases es with
  | nil => exact bare_nil
  | cons e es =>
    simp only [List.forall_mem_cons] at each
    simp [yieldArguments, each.1, bare_yieldFurther each.2]

/-- The end of the file is no part of any tree, so it can serve as the token behind the last one. -/
theorem Expr.Canonical.bare {e : Expr} (canonical : e.Canonical) : Bare e.yield := by
  induction e using Expr.inductionOn with
  | missing => exact canonical.elim
  | literal value token =>
    have starts := Token.constant_starts canonical
    have here : token.kind ≠ .eof := by
      intro kind
      simp [kind, TokenKind.startsExpression] at starts
    simpa [yield] using here
  | grouping inner ih => simpa [yield] using ih canonical
  | unary operator right ih =>
    obtain ⟨kind, _, canonical⟩ := canonical
    have here : operator.kind ≠ .eof := by rcases kind with kind | kind <;> simp [kind]
    simpa [yield, here] using ih canonical
  | binary left operator right left_ih right_ih =>
    obtain ⟨positive, _, _, left_canonical, right_canonical⟩ := canonical
    have here : operator.kind ≠ .eof := by
      intro kind
      simp [kind, TokenKind.precedence] at positive
    simpa [yield, here] using ⟨left_ih left_canonical, right_ih right_canonical⟩
  | var name =>
    have kind : name.kind = .identifier := canonical
    simp [yield, kind]
  | assign name value ih => simpa [yield, canonical.1] using ih canonical.2
  | call callee paren arguments callee_ih arguments_ih =>
    obtain ⟨_, closing, _, callee_canonical, arguments_canonical⟩ := canonical
    have inside : Bare (yieldArguments arguments) := bare_yieldArguments fun e member =>
      arguments_ih e member (canonicalAll_iff.mp arguments_canonical e member)
    simpa [yield, closing, inside] using callee_ih callee_canonical

theorem Stmt.Canonical.bare {s : Stmt} (canonical : s.Canonical declares) : Bare s.yield := by
  induction s using Stmt.inductionOn generalizing declares with
  | missing | bad => exact canonical.elim
  | expression expr | print expr => simpa [yield] using Expr.Canonical.bare canonical
  | declare name => simp [yield, canonical.2]
  | define name initializer => simpa [yield, canonical.2.1] using canonical.2.2.bare
  | block brace body ih =>
    obtain ⟨kind, canonical⟩ := canonical
    have inside : Bare (yieldAll body) := by
      intro leaf member
      obtain ⟨s, among, here⟩ := mem_yieldAll.mp member
      exact ih s among (canonicalAll_iff.mp canonical s among) leaf here
    simpa [yield, kind] using inside
  | ifThen condition thenBranch ih => simpa [yield] using ⟨canonical.1.bare, ih canonical.2⟩
  | ifElse condition thenBranch elseBranch then_ih else_ih =>
    obtain ⟨condition_canonical, then_canonical, _, else_canonical⟩ := canonical
    simpa [yield] using
      ⟨condition_canonical.bare, then_ih then_canonical, else_ih else_canonical⟩
  | loop condition body ih => simpa [yield] using ⟨canonical.1.bare, ih canonical.2⟩

theorem Spells.append (first : Spells earlier tokens) (second : Spells later others) :
    Spells (earlier ++ later) (tokens ++ others) := List.rel_append first second

theorem Spells.mem (spelled : Spells leaves tokens) (member : t ∈ tokens) :
    ∃ leaf ∈ leaves, leaf.Matches t := by
  induction spelled with
  | nil => contradiction
  | cons here _ ih =>
    rcases List.mem_cons.mp member with rfl | later
    · exact ⟨_, List.mem_cons_self, here⟩
    · obtain ⟨leaf, among, matching⟩ := ih later
      exact ⟨leaf, List.mem_cons_of_mem _ among, matching⟩

/-- A token that is kept stands among the tokens. -/
theorem Spells.kept_mem (spelled : Spells leaves tokens) (member : .kept t ∈ leaves) : t ∈ tokens := by
  induction spelled with
  | nil => contradiction
  | cons here _ ih =>
    rcases List.mem_cons.mp member with rfl | later
    · obtain rfl : t = _ := here
      exact List.mem_cons_self
    · exact List.mem_cons_of_mem _ (ih later)

theorem Stmt.CanonicalAll.bare (canonical : Stmt.CanonicalAll program)
    (spelled : Spells (Stmt.yieldAll program) tokens) : ∀ t ∈ tokens, t.kind ≠ .eof := by
  intro t member
  obtain ⟨leaf, inside, matching⟩ := spelled.mem member
  obtain ⟨s, among, inside⟩ := Stmt.mem_yieldAll.mp inside
  rw [matching.kind_eq]
  exact (Stmt.canonicalAll_iff.mp canonical s among).bare leaf inside

end LoxLang

import LoxLang.Proofs.Machine.Triples
import LoxLang.Proofs.Parser.Program
import LoxLang.Proofs.Scanner.Lexemes

/-! Arithmetic from the text to the value. An expression can be written in many ways, with more or fewer
parentheses, blanks and comments. Whatever the way, it is parsed, and its value is found by going through
the expression from left to right. -/
namespace LoxLang

inductive ArithOp where
  | add | sub | mul | div
deriving DecidableEq

namespace ArithOp

def kind : ArithOp → TokenKind
  | add => .plus
  | sub => .minus
  | mul => .star
  | div => .slash

def mark : ArithOp → Char
  | add => '+'
  | sub => '-'
  | mul => '*'
  | div => '/'

def level : ArithOp → Nat
  | add | sub => 1
  | mul | div => 2

/-- The result, unless it is that of a division by zero. -/
def apply : ArithOp → Float → Float → Option Float
  | add, a, b => some (a + b)
  | sub, a, b => some (a - b)
  | mul, a, b => some (a * b)
  | div, a, b => if b == 0 then none else some (a / b)

theorem precedence_kind (op : ArithOp) : op.kind.precedence = op.level + 2 := by
  cases op <;> rfl

theorem level_le (op : ArithOp) : op.level ≤ 2 := by
  cases op <;> decide

theorem apart_mark (op : ArithOp) (rest : List Char) : Apart (op.mark :: rest) := by
  cases op <;> exact apart_cons rfl (by decide) rest

/-- The mark makes its own token, unless it is taken for the first slash of a comment. -/
theorem cut_mark (op : ArithOp) (nonempty : text ≠ []) (division : op = div → text.head? ≠ some '/')
    (rest : List Char) : Piece.cut op.mark (text ++ rest) = (.symbol op.kind, text ++ rest) := by
  cases op with
  | add | sub | mul => rfl
  | div =>
    obtain ⟨c, more, rfl⟩ := List.exists_cons_of_ne_nil nonempty
    have other : c ≠ '/' := by simpa using division rfl
    exact Piece.cut_slash other _

theorem div_of_apply (op : ArithOp) (undefined : op.apply a b = none) : op = div := by
  cases op with
  | add | sub | mul => contradiction
  | div => rfl

theorem applyBinary_num (op : ArithOp) (kind : operator.kind = op.kind) (a b : Float) :
    applyBinary operator (.num a) (.num b) =
      match op.apply a b with
      | some x => .ok (.num x)
      | none => .error .divisionByZero := by
  unfold applyBinary
  rw [kind]
  cases op with
  | add | sub | mul => rfl
  | div =>
    simp only [ArithOp.kind, onNumbers, divide, apply]
    split <;> rfl

end ArithOp

inductive Arith where
  | number (x : Float)
  | negate (e : Arith)
  | binary (left : Arith) (op : ArithOp) (right : Arith)

namespace Arith

/-- The value of an expression, unless there is a division by zero on the way to it. -/
def value? : Arith → Option Float
  | number x => some x
  | negate e => do
    let x ← e.value?
    return -x
  | binary left op right => do
    let a ← left.value?
    let b ← right.value?
    op.apply a b

/-- The text is a way to write the expression, where an operator stands without parentheses only if its
level is at least the one given. An operator takes its left operand at its own level and its right operand
one level higher, so that operators of one level group from the left. Before any token there may be a gap,
but one that follows a `/` does not begin with another. The depth is that of signs and parentheses. -/
inductive Written : (level depth : Nat) → Arith → List Char → Prop where
  | number : Gap gap → whole ≠ [] → (∀ c ∈ whole, c.isDigit = true) →
      (∀ c ∈ fraction, c.isDigit = true) → Number.overflows whole fraction = false →
      Written level 0 (number (Number.ofNumeral whole fraction))
        (gap ++ (Piece.numeral whole fraction).chars)
  | parens : Gap gap → Written 0 depth e text → Gap last →
      Written level (depth + 1) e (gap ++ '(' :: (text ++ (last ++ [')'])))
  | negate : level ≤ 3 → Gap gap → Written 3 depth e text →
      Written level (depth + 1) (negate e) (gap ++ '-' :: text)
  | binary (op : ArithOp) : level ≤ op.level → Written op.level leftDepth left leftText → Gap gap →
      Written (op.level + 1) rightDepth right rightText →
      (op = .div → rightText.head? ≠ some '/') →
      Written level (max leftDepth rightDepth) (binary left op right)
        (leftText ++ (gap ++ op.mark :: rightText))

/-- The tree stands for the expression; parentheses make no difference. -/
inductive Denoted : Expr → Arith → Prop where
  | number : Denoted (.literal (.num x) token) (number x)
  | parens {inner : Expr} : Denoted inner e → Denoted (.grouping inner) e
  | negate : operator.kind = .minus → Denoted right e → Denoted (.unary operator right) (negate e)
  | binary : operator.kind = op.kind → Denoted l left → Denoted r right →
      Denoted (.binary l operator r) (binary left op right)

/-- A tree that stands for the expression, and that the tokens are parsed into. -/
structure Tree (e : Arith) (level depth : Nat) (tokens : List Token) (expr : Expr) : Prop where
  denoted : Denoted expr e
  canonical : expr.Canonical
  rank : level + 2 ≤ expr.rank
  nesting : expr.nesting = depth
  spelled : Spells expr.yield tokens

theorem tree_number (kind : t.kind = .number) (literal : t.literal = .num x) (loose : level ≤ 4) :
    Tree (number x) level 0 [t] (.literal (.num x) t) where
  denoted := .number
  canonical := by simp [Expr.Canonical, Token.constant?, kind, literal]
  rank := Nat.add_le_add_right loose 2
  nesting := rfl
  spelled := .cons rfl .nil

theorem Tree.parens (tree : Tree e 0 depth tokens expr) (opening : t.kind = .leftParen)
    (closing : t'.kind = .rightParen) (loose : level ≤ 4) :
    Tree e level (depth + 1) (t :: (tokens ++ [t'])) (.grouping expr) where
  denoted := .parens tree.denoted
  canonical := tree.canonical
  rank := Nat.add_le_add_right loose 2
  nesting := congrArg (· + 1) tree.nesting
  spelled := .cons opening (tree.spelled.append (.cons closing .nil))

theorem Tree.negate (tree : Tree e 3 depth tokens expr) (kind : t.kind = .minus) (loose : level ≤ 3) :
    Tree (negate e) level (depth + 1) (t :: tokens) (.unary t expr) where
  denoted := .negate kind tree.denoted
  canonical := ⟨.inr kind, tree.rank, tree.canonical⟩
  rank := Nat.add_le_add_right loose 2
  nesting := congrArg (· + 1) tree.nesting
  spelled := .cons rfl tree.spelled

theorem Tree.binary (left : Tree a op.level leftDepth earlier l)
    (right : Tree b (op.level + 1) rightDepth later r) (kind : t.kind = op.kind) (loose : level ≤ op.level) :
    Tree (binary a op b) level (max leftDepth rightDepth) (earlier ++ t :: later) (.binary l t r) := by
  have precedence : t.kind.precedence = op.level + 2 := by rw [kind, op.precedence_kind]
  have left_rank := left.rank
  have right_rank := right.rank
  refine ⟨.binary kind left.denoted right.denoted, ?_, ?_, ?_, ?_⟩
  · exact ⟨by omega, by omega, by omega, left.canonical, right.canonical⟩
  · rw [Expr.rank]
    omega
  · rw [Expr.nesting, left.nesting, right.nesting]
  · exact left.spelled.append (.cons rfl right.spelled)

theorem Written.nonempty (written : Written level depth e text) : text ≠ [] := by
  cases written with
  | @number _ _ fraction _ _ nonempty => cases fraction <;> simp [Piece.chars, nonempty]
  | parens | negate | binary => simp

/-- The scanner gives the tokens of the tree, whatever comes after the text. -/
theorem Written.scans (written : Written level depth e text) (loose : level ≤ 4) (start : Position)
    (apart : Apart rest) :
    ∃ tokens stop expr, Scans start (text ++ rest) tokens stop rest ∧ Tree e level depth tokens expr := by
  induction written generalizing start rest with
  | number gap some digits places small =>
    obtain ⟨mid, before⟩ := gap.scans start _
    obtain ⟨t, stop, kind, literal, here⟩ := Scans.of_numeral mid some digits places small apart
    refine ⟨[t], stop, _, ?_, tree_number kind literal loose⟩
    rw [List.append_assoc]
    exact before.append here
  | @parens gap depth e text last level gap_before _ gap_after ih =>
    have closing : Apart (last ++ ')' :: rest) := gap_after.apart (apart_cons rfl (by decide) rest)
    obtain ⟨t, first, opens, before⟩ := gap_before.scans_symbol start
      (show Piece.cut '(' (text ++ (last ++ ')' :: rest)) = (.symbol .leftParen, _) from rfl)
    obtain ⟨tokens, second, expr, inside, tree⟩ := ih (by decide) first closing
    obtain ⟨t', stop, closes, after⟩ := gap_after.scans_symbol second
      (show Piece.cut ')' rest = (.symbol .rightParen, rest) from rfl)
    refine ⟨_, stop, _, ?_, tree.parens opens closes loose⟩
    simpa using before.append (inside.append after)
  | @negate level gap depth e text tight gap_before _ ih =>
    obtain ⟨t, mid, kind, before⟩ := gap_before.scans_symbol start
      (show Piece.cut '-' (text ++ rest) = (.symbol .minus, _) from rfl)
    obtain ⟨tokens, stop, expr, inside, tree⟩ := ih (by decide) mid apart
    refine ⟨_, stop, _, ?_, tree.negate kind tight⟩
    simpa using before.append inside
  | @binary level leftDepth left leftText gap rightDepth right rightText op tight _ gap_before written
      division left_ih right_ih =>
    have small := op.level_le
    have follows : Apart (gap ++ op.mark :: (rightText ++ rest)) := gap_before.apart (op.apart_mark _)
    obtain ⟨earlier, first, l, before, left_tree⟩ := left_ih (by omega) start follows
    obtain ⟨t, second, kind, here⟩ := gap_before.scans_symbol first
      (op.cut_mark written.nonempty division rest)
    obtain ⟨later, stop, r, after, right_tree⟩ := right_ih (by omega) second apart
    refine ⟨_, stop, _, ?_, left_tree.binary right_tree kind tight⟩
    simpa using before.append (here.append after)

/-- What is written is parsed into a tree that stands for it. -/
theorem Written.parses (written : Written 0 depth e text) (gap : Gap last) (room : depth + 2 ≤ limit)
    (file : String) :
    ∃ expr, Denoted expr e ∧ expr.nesting = depth ∧
      parse limit file (text ++ (last ++ [';'])) =
        { program := [.expression expr], lexical := [], syntactic := [] } := by
  have ending : Apart (last ++ [';']) := gap.apart (apart_cons rfl (by decide) [])
  obtain ⟨tokens, mid, expr, before, tree⟩ := written.scans (by decide) (.start file) ending
  obtain ⟨t, stop, kind, after⟩ := gap.scans_symbol mid
    (show Piece.cut ';' [] = (.symbol .semicolon, []) from rfl)
  have scanned := (before.append after).scan_eq
  have canonical : Stmt.CanonicalAll [.expression expr] := ⟨tree.canonical, trivial⟩
  have shallow : Stmt.nestingAll [.expression expr] ≤ limit := by
    simpa [Stmt.nestingAll, Stmt.nesting, tree.nesting] using room
  have spelled : Spells (Stmt.yieldAll [.expression expr]) (tokens ++ [t]) := by
    rw [Stmt.yieldAll, Stmt.yieldAll, List.append_nil]
    exact tree.spelled.append (.cons kind .nil)
  have parsed : parseTokens limit (tokens ++ [t] ++ [endToken stop]) = ([.expression expr], []) :=
    (parseTokens_clean (canonical.bare spelled) rfl).mpr ⟨canonical, shallow, spelled⟩
  refine ⟨expr, tree.denoted, tree.nesting, ?_⟩
  simp only [parse, scanned, parsed]

end Arith

theorem Machine.deeper_fits {m : Machine} (room : m.depth + (levels + 1) ≤ m.limit) :
    m.Roomy ∧ m.deeper.depth + levels ≤ m.deeper.limit := by
  constructor
  · change m.depth + 1 ≤ m.limit
    omega
  · change m.depth + 1 + levels ≤ m.limit
    omega

namespace Eval

/-- The part ends with the number and leaves the machine as it is, or it fails with a division by zero. -/
def Gives (part : Eval Value) (m : Machine) : Option Float → Prop
  | some x => part m = .ok (.num x) m
  | none => ∃ operator, operator.kind = .slash ∧
      part m = .error (.error { token := operator, cause := .divisionByZero }) m

theorem gives_nest {part : Eval Value} (token : Token) (roomy : m.Roomy)
    (inside : Gives part m.deeper answer) : Gives (nest token part) m answer := by
  cases answer with
  | some x => exact nest_of_ok token roomy inside
  | none =>
    obtain ⟨operator, kind, stopped⟩ := inside
    exact ⟨operator, kind, nest_of_error token roomy stopped⟩

theorem Gives.bind {first : Eval Value} {second : Value → Eval Value} (given : Gives first m answer)
    (next : ∀ x, Gives (second (.num x)) m (result x)) :
    Gives (first >>= second) m (answer.bind result) := by
  cases answer with
  | some x =>
    have here := next x
    unfold Gives at here ⊢
    rw [bind_of_ok given]
    exact here
  | none =>
    obtain ⟨operator, kind, stopped⟩ := given
    exact ⟨operator, kind, bind_of_error stopped⟩

end Eval

namespace Arith

/-- Evaluation of the tree finds the value of the expression. -/
theorem Denoted.evaluate (denoted : Denoted expr e) (room : m.depth + expr.nesting ≤ m.limit) :
    expr.evaluate.Gives m e.value? := by
  induction denoted generalizing m with
  | number => rfl
  | @parens e inner _ ih =>
    obtain ⟨roomy, below⟩ := Machine.deeper_fits room
    exact Eval.gives_nest inner.token roomy (ih below)
  | @negate right e operator kind _ ih =>
    obtain ⟨roomy, below⟩ := Machine.deeper_fits room
    refine Eval.gives_nest operator roomy ((ih below).bind fun x => ?_)
    have negated : applyUnary operator (.num x) = .ok (.num (-x)) := by
      unfold applyUnary
      rw [kind]
    rw [negated]
    rfl
  | @binary l left r right operator op kind _ _ left_ih right_ih =>
    rw [Expr.nesting] at room
    refine (left_ih (by omega)).bind fun a => (right_ih (by omega)).bind fun b => ?_
    rw [op.applyBinary_num kind]
    cases applied : op.apply a b with
    | some x => rfl
    | none => exact ⟨operator, by rw [kind, op.div_of_apply applied, ArithOp.kind], rfl⟩

end Arith

/-- An arithmetic expression that is written with all the parentheses it needs, and with a semicolon after
it, is parsed without complaint if it does not nest too deeply. It evaluates to its value and leaves the
machine as it was; where there is no value, it fails with a division by zero. -/
theorem arithmetic_evaluates {e : Arith} {depth limit : Nat} {text last : List Char} {m : Machine}
    (written : e.Written 0 depth text) (gap : Gap last) (parsing : depth + 2 ≤ limit)
    (running : m.depth + (depth + 1) ≤ m.limit) (file : String) (rounds : Nat) :
    let parsed := parse limit file (text ++ (last ++ [';']))
    parsed.diagnostics = [] ∧
      (∀ x, e.value? = some x → runProgram rounds parsed.program m = .ok (.num x) m) ∧
      (e.value? = none → ∃ error, runProgram rounds parsed.program m = .error (.error error) m ∧
        error.token.kind = .slash ∧ error.cause.message = "Division by zero.") := by
  obtain ⟨expr, denoted, rfl, parsed⟩ := written.parses gap parsing file
  obtain ⟨roomy, below⟩ := Machine.deeper_fits running
  have given : (Eval.nest expr.token expr.evaluate).Gives m e.value? :=
    Eval.gives_nest expr.token roomy (denoted.evaluate below)
  have run : runProgram rounds [.expression expr] = Eval.nest expr.token expr.evaluate := by
    simp [runProgram, Stmt.execute, Stmt.token]
  rw [parsed]
  refine ⟨rfl, fun x value => ?_, fun value => ?_⟩
  · rw [value] at given
    rw [run]
    exact given
  · rw [value] at given
    obtain ⟨operator, kind, failed⟩ := given
    exact ⟨_, run ▸ failed, kind, rfl⟩

/-- Differences group from the left, a quotient is taken before them, and a sign before that. -/
theorem arithmetic_evaluates_mixed :
    let number whole fraction := Arith.number (Number.ofNumeral whole fraction)
    let e := Arith.binary (.binary (number ['8'] []) .sub (number ['2'] [])) .sub
      (.binary (number ['4'] []) .div (.negate (number ['0'] ['5'])))
    let parsed := parse 3 "" "8-2-(4)// half\n/ -0.5;".toList
    e.Written 0 1 "8-2-(4)// half\n/ -0.5".toList ∧ parsed.diagnostics = [] ∧
      (∀ x, e.value? = some x → runProgram 0 parsed.program { limit := 2 } = .ok (.num x) { limit := 2 }) ∧
      (e.value? = none →
        ∃ error, runProgram 0 parsed.program { limit := 2 } = .error (.error error) { limit := 2 } ∧
          error.token.kind = .slash ∧ error.cause.message = "Division by zero.") := by
  intro number e parsed
  have digit {d : Char} (numeral : d.isDigit = true) (small : Number.overflows [d] [] = false)
      (level : Nat) : (number [d] []).Written level 0 [d] :=
    .number .empty (List.cons_ne_nil d []) (List.forall_mem_singleton.mpr numeral)
      (List.forall_mem_nil _) small
  have eight := @digit '8' rfl (by decide +kernel)
  have two := @digit '2' rfl (by decide +kernel)
  have four := @digit '4' rfl (by decide +kernel)
  have difference := Arith.Written.binary .sub (show 1 ≤ 1 by decide) (eight 1) .empty (two 2) (by decide)
  have half : (number ['0'] ['5']).Written 3 0 ([] ++ ['0', '.', '5']) :=
    .number .empty (List.cons_ne_nil _ []) (List.forall_mem_singleton.mpr rfl)
      (List.forall_mem_singleton.mpr rfl) (by decide +kernel)
  have space : Gap [' '] := .blank (by decide) .empty
  have negative := Arith.Written.negate (show 3 ≤ 3 by decide) space half
  have comment : Gap ('/' :: '/' :: (" half".toList ++ ['\n'])) := .comment (by decide) .empty
  have quotient := Arith.Written.binary .div (show 2 ≤ 2 by decide)
    (.parens .empty (four 0) .empty) comment negative (by decide)
  have written := Arith.Written.binary .sub (show 0 ≤ 1 by decide) difference .empty quotient (by decide)
  change e.Written 0 1 "8-2-(4)// half\n/ -0.5".toList at written
  exact ⟨written, arithmetic_evaluates written .empty (by decide) (by decide) "" 0⟩

end LoxLang

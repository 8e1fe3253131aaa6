import LoxLang.Schema.Layout.Columns
import LoxLang.Schema.Layout.Reader

/-! The usual layout of Go declarations. Blanks stand at fixed places, types of fields are aligned, and
line breaks are kept where a text may have them. -/
namespace LoxLang.Schema.Layout

/-- Up to two line breaks, as many as the text has between two lines but at least `least`. -/
def breaksBetween (line next least : Nat) : Nat :=
  max (min 2 (next - line)) least

/-- So many line breaks; the first one ends all columns if `divides`. -/
def breaks (count : Nat) (divides : Bool) : List Mark :=
  match count with
  | 0 => []
  | n + 1 => (if divides then .divide else .newline) :: List.replicate n .newline

/-! Literals. -/

/-- A number with small letters for its base and its exponent, and without zeros in front if it is
imaginary. -/
def normalNumber (text : String) : String :=
  match text.toList with
  | '0' :: 'x' :: rest | '0' :: 'X' :: rest => String.ofList ('0' :: 'x' :: rest.map small)
  | '0' :: 'o' :: rest | '0' :: 'O' :: rest => String.ofList ('0' :: 'o' :: rest)
  | '0' :: 'b' :: rest | '0' :: 'B' :: rest => String.ofList ('0' :: 'b' :: rest)
  | chars =>
    let chars := chars.map fun c => if c == 'E' then 'e' else c
    if chars.getLast? == some 'i' && 1 < chars.length && !chars.contains '.' && !chars.contains 'e' then
      match chars.dropWhile fun c => c == '0' || c == '_' with
      | ['i'] => "0i"
      | rest => String.ofList rest
    else String.ofList chars
where
  /-- The mark of a binary exponent. -/
  small (c : Char) : Char := if c == 'P' then 'p' else c

def literalText (text : String) : String :=
  match text.toList with
  | c :: _ => if c.isDigit || c == '.' then normalNumber text else text
  | [] => text

/-! Operators. In an expression without parentheses, blanks stand around the operators that bind less
strongly, as a help for the eye. -/

def unaryPrecedence : Nat := 6

def highestPrecedence : Nat := 7

/-- Two operators would read as another one if they stood side by side. -/
def combines (a b : String) : Bool :=
  [("+", "+"), ("-", "-"), ("&", "&"), ("&", "^")].contains (a, b)

/-- What an expression has: operators like the sum, those like the product, and the precedence up to which
blanks are needed. -/
structure Operators where
  sums : Bool := false
  products : Bool := false
  needed : Nat := 0
deriving Inhabited

/-- The precedence of the operator between the two operands of a term, or zero. -/
def Term.strength : Term → Nat
  | .mk _ _ (.binary operator _ _) => precedence operator
  | _ => 0

/-- The precedence up to which blanks are needed so that the operator does not run into the operand after
it. -/
def Term.needed (operator : String) : Term → Nat
  | .mk _ _ (.pointer _) => if operator == "/" then 5 else 0
  | .mk _ _ (.unary sign _) =>
    if operator ++ sign == "&&" || operator ++ sign == "&^" then 5
    else if operator ++ sign == "++" || operator ++ sign == "--" then 4
    else 0
  | _ => 0

/-- The operators of a term that are not in parentheses. -/
def Term.operators : Term → Operators
  | .mk _ _ (.binary operator left right) =>
    let strength := precedence operator
    let l := if left.strength < strength then {} else left.operators
    let r := if right.strength ≤ strength then {} else right.operators
    { sums := strength == 4 || l.sums || r.sums
      products := strength == 5 || l.products || r.products
      needed := max (max l.needed r.needed) (right.needed operator) }
  | _ => {}

/-- Operators that bind less strongly than this have blanks around them, where `depth` is that of the term
in others. -/
def Term.cutoff (term : Term) (depth : Nat) : Nat :=
  let operators := term.operators
  if 0 < operators.needed then operators.needed + 1
  else if operators.sums && operators.products then (if depth = 1 then 5 else 4)
  else if depth = 1 then 6
  else 4

/-- The next depth, which is the same for an operator of the same precedence. -/
def Term.depthBelow (term : Term) (strength depth : Nat) : Nat :=
  if term.strength = strength then depth else depth + 1

/-! Types and expressions. -/

def oneLineWidth : Nat := 30

def namesMarks : List String → List Mark
  | [] => []
  | [name] => [.text name]
  | name :: rest => .text name :: .text "," :: .blank :: namesMarks rest

def namesWidth (names : List String) : Nat :=
  names.foldl (fun width name => width + name.length + 2) 0 - 2

/-- The comment at the end of a line, after `cells` ends of cells but at least one. -/
def commentMarks (cells : Nat) : Option String → List Mark
  | none => []
  | some text => List.replicate (max cells 1) .cell ++ [.text text]

/-- What stands in braces on the given lines: `body` line by line, or on one line what is left of it. -/
def bracedMarks (opening closing : Nat) (groups : List Group) (body : List Mark)
    (oneLine : Option (List Mark)) : List Mark :=
  let remarked := body.any fun
    | .remark .. => true
    | _ => false
  let tall := .blank :: .text "\x7b" :: .indent :: (if groups.isEmpty then [] else [.divide]) ++ body ++
    [.unindent, .divide, .text "\x7d"]
  if opening = closing && !remarked then
    if groups.isEmpty then [.text "\x7b\x7d"]
    else
      match oneLine with
      | some marks => .text "\x7b" :: .blank :: marks ++ [.blank, .text "\x7d"]
      | none => tall
  else tall

mutual

/-- A term in the place of an operand of an operator with the precedence `level`, in others to the given
depth. Parentheses around it are left out if `bare`. -/
def Term.marks (bare : Bool) (level depth : Nat) : Term → List Mark
  | .mk _ _ form => form.marks bare level depth

def Form.marks (bare : Bool) (level depth : Nat) : Form → List Mark
  | .name text => [.text text]
  | .literal text => [.text (literalText text)]
  | .remarked before after inner =>
    (if before == "" then [] else [.remark before true]) ++ inner.marks bare level depth ++
      (if after == "" then [] else [.remark after false])
  | .paren inner =>
    match inner with
    | .mk _ _ (.paren _) => inner.marks bare 0 depth
    | _ =>
      if bare then inner.marks bare 0 1
      else .text "(" :: inner.marks false 0 (max 1 (depth - 1)) ++ [.text ")"]
  | .member owner name line =>
    let front := owner.marks false highestPrecedence depth ++ [.text "."]
    if owner.last < line then front ++ [.indent, .newline, .text name, .unindent]
    else front ++ [.text name]
  | .index owner arguments =>
    owner.marks false highestPrecedence 1 ++ .text "[" :: listMarks (depth + 1) arguments ++ [.text "]"]
  | .call callee arguments =>
    let depth := if 1 < arguments.length then depth + 1 else depth
    let front := callee.marks false highestPrecedence depth
    let front :=
      match callee.form with
      | .function _ | .channel .receive _ => .text "(" :: front ++ [.text ")"]
      | _ => front
    front ++ .text "(" :: listMarks depth arguments ++ [.text ")"]
  | .pointer target =>
    let body := .text "*" :: target.marks false 0 1
    if unaryPrecedence < level then .text "(" :: body ++ [.text ")"] else body
  | .unary operator operand =>
    let apart :=
      match operand.form with
      | .unary inner _ => combines operator inner
      | _ => false
    let body := .text operator :: (if apart then [.blank] else []) ++
      operand.marks false unaryPrecedence depth
    if unaryPrecedence < level then .text "(" :: body ++ [.text ")"] else body
  | .binary operator left right =>
    let strength := precedence operator
    let whole : Term := .mk 0 0 (.binary operator left right)
    let blanks := if strength < whole.cutoff depth then [Mark.blank] else []
    let front := left.marks false strength (left.depthBelow strength depth) ++ blanks ++ [.text operator]
    let back := right.marks false (strength + 1) (depth + 1)
    if left.last < right.first then
      front ++ .indent :: breaks (breaksBetween left.last right.first 1) true ++ back ++ [.unindent]
    else front ++ blanks ++ back
  | .variadic element =>
    match element with
    | none => [.text "..."]
    | some element => .text "..." :: element.marks false 0 1
  | .array length element =>
    match length with
    | none => .text "[]" :: element.marks false 0 1
    | some length => .text "[" :: length.marks false 0 1 ++ .text "]" :: element.marks false 0 1
  | .map key value => .text "map[" :: key.marks false 0 1 ++ .text "]" :: value.marks false 0 1
  | .channel direction element =>
    let front :=
      match direction with
      | .both => "chan"
      | .send => "chan<-"
      | .receive => "<-chan"
    .text front :: .blank :: element.marks false 0 1
  | .function signature => .text "func" :: signature.marks
  | .struct opening closing fields =>
    let body := fieldMarks (fields.length != 1) none fields
    .text "struct" :: bracedMarks opening closing fields body (oneLineField? fields)
  | .interface opening closing members =>
    let body := memberMarks none members
    .text "interface" :: bracedMarks opening closing members body (oneLineMember? members)

def listMarks (depth : Nat) : List Term → List Mark
  | [] => []
  | [term] => term.marks false 0 depth
  | term :: rest => term.marks false 0 depth ++ .text "," :: .blank :: listMarks depth rest

def Signature.marks : Signature → List Mark
  | .mk parameters results =>
    parameters.marks "(" ")" ++
      match results with
      | none => []
      | some (.mk _ _ []) => []
      | some (.mk _ _ [.mk _ _ [] type _ _]) => .blank :: type.marks true 0 1
      | some row => .blank :: row.marks "(" ")"

/-- Parameters between brackets. They stand on one line, except where the text has line breaks. -/
def Row.marks (front back : String) : Row → List Mark
  | .mk opening closing groups =>
    let (body, line, indented) := rowMarks false opening false groups
    let ending :=
      if line < closing && !groups.isEmpty then
        .text "," :: breaks (breaksBetween line closing 0) true
      else []
    .text front :: body ++ ending ++ (if indented then [.unindent] else []) ++ [.text back]

/-- Groups of parameters after the given line, with the line where they end and whether they are set
in. -/
def rowMarks (comma : Bool) (line : Nat) (indented : Bool) : List Group → List Mark × Nat × Bool
  | [] => ([], line, indented)
  | .mk first last names type _ _ :: rest =>
    let breaking := line < first
    let front := if comma then [.text ","] else []
    let gap :=
      if breaking then (if indented then [] else [.indent]) ++ breaks (breaksBetween line first 0) true
      else if comma then [.blank]
      else []
    let named := if names.isEmpty then [] else namesMarks names ++ [.blank]
    let (more, line, indented) := rowMarks true last (indented || breaking) rest
    (front ++ gap ++ named ++ type.marks true 0 1 ++ more, line, indented)

/-- Fields line by line, where `before` is the last line of the field before them and tells whether that
was laid out over several ones. The types are aligned if `cells`. -/
def fieldMarks (cells : Bool) (before : Option (Nat × Bool)) : List Group → List Mark
  | [] => []
  | .mk first last names type tag comment :: rest =>
    let gap :=
      match before with
      | none => []
      | some (line, tall) => breaks (breaksBetween line first 1) tall
    let apart : Mark := if cells then .cell else .blank
    let named := if names.isEmpty then [] else namesMarks names ++ [apart]
    let tagged :=
      match tag with
      | none => []
      | some tag => (if !names.isEmpty && cells then [apart] else []) ++ [apart, .text (literalText tag)]
    let own := if tag.isSome || !cells then 0 else if names.isEmpty then 2 else 1
    let body := named ++ type.marks false 0 1 ++ tagged ++ commentMarks own comment
    gap ++ body ++ fieldMarks cells (some (last, body.any Mark.isBreak)) rest

def memberMarks (before : Option (Nat × Bool)) : List Group → List Mark
  | [] => []
  | .mk first last names type _ comment :: rest =>
    let gap :=
      match before with
      | none => []
      | some (line, tall) => breaks (breaksBetween line first 1) tall
    let body :=
      match names, type with
      | name :: _, .mk _ _ (.function signature) => .text name :: signature.marks
      | _, type => type.marks false 0 1
    let body := body ++ commentMarks 0 comment
    gap ++ body ++ memberMarks (some (last, body.any Mark.isBreak)) rest

/-- The only field of a struct, if it is short enough to stand between the braces on one line. -/
def oneLineField? : List Group → Option (List Mark)
  | [.mk _ _ names type none none] =>
    let marks := type.marks false 0 1
    let front := if names.isEmpty then 0 else namesWidth names + 1
    if front ≤ oneLineWidth && fits (oneLineWidth - front) marks then
      some ((if names.isEmpty then [] else namesMarks names ++ [.blank]) ++ marks)
    else none
  | _ => none

/-- The only member of an interface, if it is short enough to stand between the braces on one line. -/
def oneLineMember? : List Group → Option (List Mark)
  | [.mk _ _ names type none none] =>
    let marks := type.marks false 0 1
    let front := if names.isEmpty then 0 else namesWidth names + 1
    if front ≤ oneLineWidth && fits (oneLineWidth - front) marks then
      match names, type with
      | name :: _, .mk _ _ (.function signature) => some (.text name :: signature.marks)
      | _, type => some (type.marks false 0 1)
    else none
  | _ => none

end

/-! Declarations. -/

def headWidth : Nat := 99

namespace Declared

def marks (d : Declared) : List Mark :=
  match d.subject with
  | .type name parameters same type =>
    .text "type" :: .blank :: .text name ::
      ((parameters.map (Row.marks "[" "]")).getD [] ++ .blank ::
        (if same then [.text "=", .blank] else []) ++ type.marks false 0 1 ++ commentMarks 0 d.comment)
  | .method receiver name signature =>
    let head := .text "func" :: .blank ::
      ((receiver.map fun row => row.marks "(" ")" ++ [.blank]).getD [] ++ .text name :: signature.marks)
    let body :=
      if d.first = d.last && fits headWidth head then [.cell, .text "\x7b\x7d"]
      else [.blank, .text "\x7b", .newline, .text "\x7d"]
    head ++ body ++ commentMarks 0 d.comment

end Declared

/-- Declarations after each other. Those of types may follow line by line; an empty line stands between
them and a function. -/
def declaredMarks (before : Option Declared) : List Declared → List Mark
  | [] => []
  | d :: rest =>
    let gap :=
      match before with
      | none => []
      | some b =>
        let least := if b.isType == d.isType then 1 else 2
        breaks (breaksBetween b.last d.first least) (!d.isType && d.first < d.last)
    gap ++ d.marks ++ declaredMarks (some d) rest

/-- The declarations of a text in their usual layout, if it consists of such. -/
def layout? (text : List Char) : Option String :=
  (declarations? text).map fun declarations => render (declaredMarks none declarations)

end LoxLang.Schema.Layout

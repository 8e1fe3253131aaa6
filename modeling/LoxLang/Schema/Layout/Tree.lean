/-! Go declarations as trees: types and the expressions in them, with the lines that they stand on. The
lines matter, since a layout keeps some of the line breaks that a text has. -/
namespace LoxLang.Schema.Layout

inductive Direction where
  | both
  | send
  | receive
deriving DecidableEq, Inhabited, Repr

mutual

/-- A type or an expression, from its first line to its last one. -/
inductive Term where
  | mk (first last : Nat) (form : Form)

inductive Form where
  | name (text : String)
  | literal (text : String)
  /-- A term with comments before or after it. -/
  | remarked (before after : String) (inner : Term)
  | paren (inner : Term)
  | member (owner : Term) (name : String) (line : Nat)
  | index (owner : Term) (arguments : List Term)
  | call (callee : Term) (arguments : List Term)
  | pointer (target : Term)
  | unary (operator : String) (operand : Term)
  | binary (operator : String) (left right : Term)
  /-- A last parameter that stands for any number of arguments, or the length of an array that is
  counted. -/
  | variadic (element : Option Term)
  | array (length : Option Term) (element : Term)
  | map (key value : Term)
  | channel (direction : Direction) (element : Term)
  | function (signature : Signature)
  /-- The lines of the braces come first. -/
  | struct (opening closing : Nat) (fields : List Group)
  | interface (opening closing : Nat) (members : List Group)

inductive Signature where
  | mk (parameters : Row) (results : Option Row)

/-- A list in parentheses or brackets, whose lines come first. -/
inductive Row where
  | mk (opening closing : Nat) (groups : List Group)

/-- Names of one type: fields, parameters or methods. Without a name the type stands for itself. A field
may have a tag, and a comment at the end of its line. -/
inductive Group where
  | mk (first last : Nat) (names : List String) (type : Term) (tag comment : Option String)

end

instance : Inhabited Term := ⟨.mk 0 0 (.name "")⟩

namespace Term

def first : Term → Nat
  | mk first _ _ => first

def last : Term → Nat
  | mk _ last _ => last

def form : Term → Form
  | mk _ _ form => form

end Term

namespace Group

def first : Group → Nat
  | mk first .. => first

def last : Group → Nat
  | mk _ last .. => last

def names : Group → List String
  | mk _ _ names .. => names

def type : Group → Term
  | mk _ _ _ type .. => type

def tag : Group → Option String
  | mk _ _ _ _ tag _ => tag

def comment : Group → Option String
  | mk _ _ _ _ _ comment => comment

end Group

inductive Subject where
  /-- A type with parameters if it has any. An equal sign makes the name another one for the type. -/
  | type (name : String) (parameters : Option Row) (same : Bool) (type : Term)
  /-- A method or a function with an empty body. -/
  | method (receiver : Option Row) (name : String) (signature : Signature)
deriving Inhabited

structure Declared where
  first : Nat
  last : Nat
  subject : Subject
  comment : Option String := none
deriving Inhabited

namespace Declared

def isType (d : Declared) : Bool :=
  match d.subject with
  | .type .. => true
  | .method .. => false

end Declared
end LoxLang.Schema.Layout

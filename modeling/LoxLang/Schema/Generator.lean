import LoxLang.Schema
import LoxLang.Schema.Layout.Printer
import LoxLang.Schema.Package
import LoxLang.Text.Quoted

/-! Go declarations for a schema. A sum type is an interface with a marker method, and each of its
cases a type that has this method. A case whose type is itself a sum type becomes a struct around it,
since a method cannot be declared on an interface. -/
namespace LoxLang.Schema

inductive TypeForm where
  | kind (kind : String)
  | marked (marker : String)
  | struct (fields : List Field)
  /-- A struct around a type. -/
  | around (kind : String)
deriving DecidableEq, Inhabited, Repr

inductive Item where
  | type (name : String) (form : TypeForm)
  | method (receiver : String) (marker : String)
deriving DecidableEq, Inhabited, Repr

def marker (sum : String) : String :=
  "is_" ++ sum

def caseForm (s : Schema) (c : Case) : TypeForm :=
  match c.payload with
  | .record fields => .struct fields
  | .type kind => if s.isSumType kind then .around kind else .kind kind

/-- A case is a type with the marker method of its sum type. -/
def caseItems (s : Schema) (sum : String) (c : Case) : List Item :=
  [.type c.name (s.caseForm c), .method c.name (marker sum)]

def declarationItems (s : Schema) (d : Declaration) : List Item :=
  match d.body with
  | .plain kind => [.type d.name (.kind kind)]
  | .sum cases => .type d.name (.marked (marker d.name)) :: cases.flatMap (s.caseItems d.name)

def items (s : Schema) : List Item :=
  s.declarations.flatMap s.declarationItems

/-! Types in the text of the file. -/

/-- A type: what stands in front of its name, and the package of the name, if it has one. -/
structure TypeName where
  front : String
  package : Option String
  name : String
deriving DecidableEq, Inhabited, Repr

/-- A name with a point in it belongs to the first import whose path ends in what stands before the
point. If there is none, the name is written as it is. -/
def baseName (imports : List String) (front kind : List Char) : TypeName :=
  let whole : TypeName := { front := String.ofList front, package := none, name := String.ofList kind }
  match kind.dropWhile (· != '.') with
  | [] => whole
  | _ :: name =>
    match imports.find? fun path => (lastElement path).toList == kind.takeWhile (· != '.') with
    | some path =>
      { front := String.ofList front, package := some path, name := String.ofList name }
    | none => whole

/-- Takes the marks of slices and pointers off a type. -/
def typeName (imports : List String) (front : List Char) : List Char → TypeName
  | '[' :: ']' :: rest => typeName imports (front ++ ['[', ']', ' ']) rest
  | '*' :: rest => typeName imports (front ++ ['*', ' ']) rest
  | kind => baseName imports front kind

def kindName (s : Schema) (kind : String) : TypeName :=
  typeName s.imports [] kind.toList

namespace TypeForm

/-- The types that a declaration names through imports. -/
def kinds : TypeForm → List String
  | kind k => [k]
  | struct fields => fields.map (·.kind)
  | marked _ | around _ => []

end TypeForm

namespace Item

def kinds : Item → List String
  | type _ form => form.kinds
  | method _ _ => []

end Item

def packages (s : Schema) : List Package :=
  packagesOf ((s.items.flatMap Item.kinds).filterMap fun kind => (s.kindName kind).package)

def kindText (s : Schema) (kind : String) : String :=
  let t := s.kindName kind
  match t.package.bind fun path => s.packages.find? (·.path == path) with
  | some package => t.front ++ package.name ++ "." ++ t.name
  | none => t.front ++ t.name

/-- The right-hand side of a type declaration, with its parts on lines of their own. -/
def formText (s : Schema) : TypeForm → String
  | .kind kind => s.kindText kind
  | .marked marker => s!"interface \x7b\n{marker}()\n\x7d"
  | .struct [] => "struct \x7b\x7d"
  | .struct fields =>
    "struct \x7b\n" ++ String.join (fields.map fun f => f.name ++ " " ++ s.kindText f.kind ++ "\n") ++ "\x7d"
  | .around kind => s!"struct \x7b\n{kind}\n\x7d"

def itemText (s : Schema) : Item → String
  | .type name form => s!"type {name} {s.formText form}\n"
  | .method receiver marker => s!"func (v {receiver}) {marker}() \x7b\x7d\n"

/-- The items in their usual layout. A type whose text cannot be read leaves them as they are. -/
def itemsText (s : Schema) : String :=
  let text := String.join (s.items.map s.itemText)
  (Layout.layout? text.toList).getD text

def Package.importText (p : Package) : String :=
  if p.named then s!"{p.name} {Text.quoted p.path}" else Text.quoted p.path

/-- The imports: one of them on a line, several in a block in the order of their paths. -/
def importsText (packages : List Package) : String :=
  match packages with
  | [] => ""
  | [p] => s!"import {p.importText}\n"
  | packages =>
    let sorted := packages.mergeSort fun a b => !(decide (b.path < a.path))
    "import (\n" ++ String.join (sorted.map fun p => s!"\t{p.importText}\n") ++ ")\n"

def generate (s : Schema) (package : String) : String :=
  let parts := [
    "// Code generated by adtGen. DO NOT EDIT.\n", s!"package {package}\n", importsText s.packages,
    s.itemsText]
  "\n".intercalate (parts.filter (· ≠ ""))

end LoxLang.Schema

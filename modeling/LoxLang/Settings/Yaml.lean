import LoxLang.Settings
import LoxLang.Text.Utf8
import LoxLang.Yaml.Node.Read
import LoxLang.Yaml.Written

/-! Settings as a YAML mapping. Reading starts from given settings and replaces the fields that are
named; every key has to be that of a field, named once, with a value of its type. Null stands for
the empty value of any type. Writing names every field in order. -/
namespace LoxLang
namespace Settings

inductive Field where
  | maxDepth | maxEvalDepth | color | history | prompt | showTokens
deriving DecidableEq, Inhabited, Repr

namespace Field

/-- All fields, in the order in which they are written. -/
def all : List Field := [maxDepth, maxEvalDepth, color, history, prompt, showTokens]

def key : Field → String
  | maxDepth => "max_depth"
  | maxEvalDepth => "max_eval_depth"
  | color => "color"
  | history => "history"
  | prompt => "prompt"
  | showTokens => "show_tokens"

def ofKey? (key : String) : Option Field :=
  all.find? (·.key == key)

def typeName : Field → String
  | maxDepth | maxEvalDepth => "int"
  | color | showTokens => "bool"
  | history | prompt => "string"

end Field

/-- What is wrong with an entry, and on which line. -/
inductive Problem where
  | unknownField (line : Nat) (name : String)
  | repeatedField (line : Nat) (name : String)
  /-- The value, which is shown with its tag, is not of the type. -/
  | wrongType (line : Nat) (shown : String) (typeName : String)
deriving DecidableEq, Inhabited, Repr

inductive LoadError where
  | malformed
  | invalid (problems : List Problem)
deriving DecidableEq, Inhabited, Repr

def typeName : String := "main.loxSettings"

namespace Problem

def message : Problem → String
  | unknownField line name => s!"line {line}: field {name} not found in type {typeName}"
  | repeatedField line name => s!"line {line}: field {name} already set in type {typeName}"
  | wrongType line shown typeName => s!"line {line}: cannot unmarshal {shown} into {typeName}"

end Problem

namespace LoadError

def message : LoadError → String
  | malformed => "yaml: malformed document"
  | invalid problems =>
    "yaml: unmarshal errors:" ++ String.join (problems.map fun p => s!"\n  {p.message}")

end LoadError

/-- A text in a message: one of more than ten bytes is cut after seven. -/
def excerpt (text : List Char) : String :=
  let bytes := (String.ofList text).toUTF8.toList
  if 10 < bytes.length then String.ofList (Text.decodeUtf8 (bytes.take 7)) ++ "..."
  else String.ofList text

/-- A scalar in a message: its tag and its text, which is in quotes unless the tag is that of a
collection. -/
def shownScalar (s : Yaml.Scalar) (plain : Yaml.Plain) : String :=
  let tag := Yaml.shownTag (if s.tag == "" then plain.tag else s.tag)
  if tag == "!!seq" || tag == "!!map" then tag ++ String.ofList s.text
  else s!"{tag} `{excerpt s.text}`"

/-- The integer part of a double, if that is not beyond the largest 64-bit integer. What lies below
the smallest one counts as that. -/
def wholePart? (x : Float) : Option Int :=
  let bits := x.toBits.toNat
  let smallest : Int := -Int.pow 2 63
  if x.isNaN then none
  else
    let magnitude : Int := if x.isInf then Int.pow 2 64 else Number.units bits / Number.one
    let whole := if Number.isNegative bits then -magnitude else magnitude
    if Int.pow 2 63 < whole then none
    else if whole < smallest ∨ Int.pow 2 63 ≤ whole then some smallest
    else some whole

/-- The integer that a scalar stands for; null is zero. -/
def asInt? : Yaml.Plain → Option Int
  | .null => some 0
  | .int n => if n < Int.pow 2 63 then some n else none
  | .float x => wholePart? x
  | _ => none

/-- The truth value that a scalar stands for; null is false. -/
def asBool? : Yaml.Plain → Option Bool
  | .null => some false
  | .bool b => some b
  | _ => none

/-- The text that a scalar stands for: null is the empty one, and any other scalar its own. -/
def asString : Yaml.Plain → List Char → String
  | .null, _ => ""
  | _, text => String.ofList text

/-- Sets a field to what a scalar stands for, if it is of the field's type. -/
def setScalar? (s : Settings) (field : Field) (plain : Yaml.Plain) (text : List Char) :
    Option Settings :=
  match field with
  | .maxDepth => (asInt? plain).map fun v => { s with maxDepth := v }
  | .maxEvalDepth => (asInt? plain).map fun v => { s with maxEvalDepth := v }
  | .color => (asBool? plain).map fun v => { s with color := v }
  | .history => some { s with history := asString plain text }
  | .prompt => some { s with prompt := asString plain text }
  | .showTokens => (asBool? plain).map fun v => { s with showTokens := v }

/-- The node that a reference stands for. That of another node is the node itself. -/
def followed (document : Yaml.Document) : Yaml.Node → Yaml.Node
  | .reference name target line =>
    (document.target? target).getD (.reference name target line)
  | node => node

/-- The scalar, or how a collection is shown. -/
def scalarOf (document : Yaml.Document) (node : Yaml.Node) : Except (Nat × String) Yaml.Scalar :=
  match followed document node with
  | .scalar s => .ok s
  | .sequence _ line => .error (line, "!!seq")
  | .mapping _ line | .reference _ _ line => .error (line, "!!map")

structure Loading where
  settings : Settings
  problems : List Problem := []
deriving Inhabited

def Loading.report (l : Loading) (p : Problem) : Loading :=
  { l with problems := l.problems ++ [p] }

/-- Sets a field from a node. A scalar that contradicts its tag makes the text malformed. -/
def setField? (document : Yaml.Document) (l : Loading) (field : Field) (node : Yaml.Node) :
    Option Loading :=
  match scalarOf document node with
  | .error (line, shown) => some (l.report (.wrongType line shown field.typeName))
  | .ok scalar => do
    let (plain, text) ← scalar.meaning?
    match l.settings.setScalar? field plain text with
    | some settings => return { l with settings }
    | none => return l.report (.wrongType scalar.line (shownScalar scalar plain) field.typeName)

/-- The name that a key stands for; null is the empty name. -/
def keyName (document : Yaml.Document) (node : Yaml.Node) : Option (Except Problem String) :=
  match scalarOf document node with
  | .error (line, shown) => some (.error (.wrongType line shown "string"))
  | .ok scalar => scalar.meaning?.map fun (plain, text) => .ok (asString plain text)

def isMerge : Yaml.Node → Bool
  | .scalar s => s.isMerge
  | _ => false

/-- The nodes to be merged under a key, which are mappings or references to some: one, or all of a
sequence, of which the first ones go before the others and are therefore merged last. -/
def merged? (document : Yaml.Document) (node : Yaml.Node) : Option (List Yaml.Node) :=
  match node with
  | .sequence items _ => if items.all isMapping then some items.reverse else none
  | node => if isMapping node then some [node] else none
where
  /-- The node is a mapping or names one. -/
  isMapping : Yaml.Node → Bool
    | .reference name _ _ => ((document.named? name).map (·.isMapping)).getD true
    | node => node.isMapping

/-- One entry of a mapping, where `seen` are the fields that the mapping has named before and `merge`
takes a mapping in. -/
def setPair? (document : Yaml.Document) (merge : Loading → Yaml.Node → Option Loading)
    (state : Loading × List Field) (entry : Yaml.Node × Yaml.Node) :
    Option (Loading × List Field) := do
  let (l, seen) := state
  let (key, value) := entry
  if isMerge key then
    let nodes ← merged? document value
    return (← nodes.foldlM merge l, seen)
  else
    match ← keyName document key with
    | .error problem => return (l.report problem, seen)
    | .ok name =>
      match Field.ofKey? name with
      | none => return (l.report (.unknownField key.line name), seen)
      | some field =>
        if seen.contains field then return (l.report (.repeatedField key.line name), seen)
        else return (← setField? document l field value, field :: seen)

/-- Takes in a node as settings, where `active` are the anchors that the way to it leads through: it
must not come to one of them again. The depth of mappings in each other is at most `fuel`. -/
def setAll? (document : Yaml.Document) :
    (fuel : Nat) → (active : List Nat) → Loading → Yaml.Node → Option Loading
  | 0, _, _, _ => none
  | fuel + 1, active, l, node =>
    match node with
    | .mapping entries _ =>
      (entries.foldlM (setPair? document (setAll? document fuel active)) (l, [])).map Prod.fst
    | .reference _ target _ => do
      guard (!active.contains target)
      setAll? document fuel (target :: active) l (← document.target? target)
    | .sequence _ line => some (l.report (.wrongType line "!!seq" typeName))
    | .scalar scalar => do
      let (plain, _) ← scalar.meaning?
      match plain with
      | .null => return { l with settings := zero }
      | _ => return l.report (.wrongType scalar.line (shownScalar scalar plain) typeName)

/-- The depth to which mappings of a text with so many characters can be merged into each other. -/
def mergeDepth (size : Nat) : Nat := (size + 1) * (size + 1)

/-- The settings that a YAML text makes of `s`. -/
def ofYaml (s : Settings) (text : List Char) : Except LoadError Settings :=
  match Yaml.read? text with
  | none => .error .malformed
  | some none => .ok s
  | some (some document) =>
    match setAll? document (mergeDepth text.length) [] { settings := s } document.root with
    | none => .error .malformed
    | some { settings, problems := [] } => .ok settings
    | some { problems, .. } => .error (.invalid problems)

def writtenField (s : Settings) (column : Nat) : Field → List Char
  | .maxDepth => (toString s.maxDepth).toList ++ ['\n']
  | .maxEvalDepth => (toString s.maxEvalDepth).toList ++ ['\n']
  | .color => (toString s.color).toList ++ ['\n']
  | .history => Yaml.writtenLine column s.history.toList
  | .prompt => Yaml.writtenLine column s.prompt.toList
  | .showTokens => (toString s.showTokens).toList ++ ['\n']

def writtenEntry (s : Settings) (field : Field) : List Char :=
  let front := field.key.toList ++ [':', ' ']
  front ++ s.writtenField front.length field

def toYaml (s : Settings) : List Char :=
  Field.all.flatMap s.writtenEntry

end Settings
end LoxLang

import LoxLang.Schema.Layout.Tree
import LoxLang.Schema.Layout.Word

/-! Reading Go declarations of types and of methods with empty bodies. -/
namespace LoxLang.Schema.Layout

/-- The words to be read, and the line of the last one that was. -/
structure Reading where
  words : List Word
  last : Nat := 1
deriving Inhabited

/-- Reading fails where the text is no such declaration. -/
abbrev Reader := StateT Reading Option

namespace Reader

def next? : Reader (Option Word) :=
  return (← get).words.head?

/-- Takes the next word, which must have no comment before it. -/
def take : Reader Word := do
  let reading ← get
  match reading.words with
  | [] => failure
  | word :: words =>
    if word.lead != "" then failure
    set { words, last := word.lastLine : Reading }
    return word

/-- Takes the comments before the next word, if that is of the given kind. -/
def takeLead (wanted : Word → Bool) : Reader String := do
  let reading ← get
  match reading.words with
  | word :: words =>
    if wanted word then
      set { reading with words := { word with lead := "" } :: words }
      return word.lead
    else return ""
  | [] => return ""

def sees (text : String) : Reader Bool := do
  match ← next? with
  | some word => return word.text == text && (word.kind == .mark || word.kind == .keyword)
  | none => return false

def seesKind (kind : WordKind) : Reader Bool := do
  match ← next? with
  | some word => return word.kind == kind
  | none => return false

def expect (text : String) : Reader Word := do
  if ← sees text then take else failure

def accept (text : String) : Reader Bool := do
  if ← sees text then
    let _ ← take
    return true
  else return false

def takeName : Reader Word := do
  if ← seesKind .name then take else failure

def term (first : Nat) (form : Form) : Reader Term := do
  return .mk first (← get).last form

def lineComment : Reader (Option String) := do
  let reading ← get
  match reading.words with
  | word :: _ =>
    if word.kind == .comment && word.line == reading.last && word.lastLine == word.line then
      let _ ← take
      return some word.text
    else return none
  | [] => return none

/-- The end of a declaration or a field: a semicolon, which a closing bracket makes needless, and perhaps
a comment. -/
def endOfLine : Reader (Option String) := do
  if ← accept ";" then lineComment
  else if (← sees "\x7d") || (← sees ")") then return none
  else failure

end Reader

open Reader

def precedence (operator : String) : Nat :=
  if operator == "||" then 1
  else if operator == "&&" then 2
  else if ["==", "!=", "<", "<=", ">", ">="].contains operator then 3
  else if ["+", "-", "|", "^"].contains operator then 4
  else if ["*", "/", "%", "<<", ">>", "&", "&^"].contains operator then 5
  else 0

def seesType : Reader Bool := do
  match ← next? with
  | some word =>
    match word.kind with
    | .name => return true
    | .keyword => return ["struct", "func", "interface", "map", "chan"].contains word.text
    | .mark => return ["[", "*", "(", "<-"].contains word.text
    | _ => return false
  | none => return false

/-- A parameter as it is written: a name, a type, or both. -/
structure Entry where
  first : Nat
  last : Nat
  name : Option Term := none
  type : Option Term := none
deriving Inhabited

def nameText? : Term → Option String
  | .mk _ _ (.name text) => some text
  | _ => none

/-- Parameters with names: those without a type have the one of the next that has one. -/
def namedGroups : (names : List (Nat × String)) → List Entry → Option (List Group)
  | [], [] => some []
  | _ :: _, [] => none
  | names, entry :: rest =>
    match entry.name.bind nameText? with
    | none => none
    | some name =>
      let names := names ++ [(entry.first, name)]
      match entry.type with
      | none => namedGroups names rest
      | some type =>
        let first := (names.head?.map Prod.fst).getD entry.first
        (namedGroups [] rest).map
          (.mk first entry.last (names.map Prod.snd) type none none :: ·)

/-- Groups of parameters. If none has both a name and a type, all of them are types. -/
def groups? (entries : List Entry) : Option (List Group) :=
  if entries.any fun e => e.name.isSome && e.type.isSome then namedGroups [] entries
  else entries.mapM fun e =>
    (e.type.orElse fun _ => e.name).map fun type => .mk e.first e.last [] type none none

/-- The word ends a term in a list. -/
def closesTerm (word : Word) : Bool :=
  word.kind == .mark && [",", ")", "]"].contains word.text

mutual

def readType : (fuel : Nat) → Reader Term
  | 0 => failure
  | fuel + 1 => do
    let before ← takeLead fun _ => true
    let type ← readBareType fuel
    let after ← takeLead closesTerm
    if before == "" && after == "" then return type
    else term type.first (.remarked before after type)

def readBareType : (fuel : Nat) → Reader Term
  | 0 => failure
  | fuel + 1 => do
    let some word ← next? | failure
    let line := word.line
    match word.kind, word.text with
    | .name, _ => readTypeName fuel
    | .mark, "*" =>
      let _ ← take
      term line (.pointer (← readType fuel))
    | .mark, "(" =>
      let _ ← take
      let inner ← readType fuel
      let _ ← expect ")"
      term line (.paren inner)
    | .mark, "[" =>
      let _ ← take
      readArray line fuel
    | .mark, "<-" =>
      let _ ← take
      let _ ← expect "chan"
      term line (.channel .receive (← readType fuel))
    | .keyword, "chan" =>
      let _ ← take
      let direction := if ← accept "<-" then .send else .both
      term line (.channel direction (← readType fuel))
    | .keyword, "map" =>
      let _ ← take
      let _ ← expect "["
      let key ← readType fuel
      let _ ← expect "]"
      term line (.map key (← readType fuel))
    | .keyword, "func" =>
      let _ ← take
      term line (.function (← readSignature fuel))
    | .keyword, "struct" =>
      let _ ← take
      let opening ← expect "\x7b"
      let fields ← readFields fuel
      let closing ← expect "\x7d"
      term line (.struct opening.line closing.line fields)
    | .keyword, "interface" =>
      let _ ← take
      let opening ← expect "\x7b"
      let members ← readMembers fuel
      let closing ← expect "\x7d"
      term line (.interface opening.line closing.line members)
    | _, _ => failure

/-- A name, perhaps of a package, and the arguments of a generic type. -/
def readTypeName : (fuel : Nat) → Reader Term
  | 0 => failure
  | fuel + 1 => do
    let name ← takeName
    readQualified (← term name.line (.name name.text)) fuel

/-- The rest of a type after its first name. -/
def readQualified (name : Term) : (fuel : Nat) → Reader Term
  | 0 => failure
  | fuel + 1 => do
    let owner ←
      if ← accept "." then
        let member ← takeName
        term name.first (.member name member.text member.line)
      else pure name
    if ← accept "[" then
      let arguments ← readTypes fuel
      let _ ← expect "]"
      term name.first (.index owner arguments)
    else return owner

def readTypes : (fuel : Nat) → Reader (List Term)
  | 0 => failure
  | fuel + 1 => do
    let type ← readType fuel
    if ← accept "," then
      if ← sees "]" then return [type] else return type :: (← readTypes fuel)
    else return [type]

/-- An array or a slice, after its opening bracket on the given line. -/
def readArray (line : Nat) : (fuel : Nat) → Reader Term
  | 0 => failure
  | fuel + 1 => do
    if ← accept "]" then term line (.array none (← readType fuel))
    else if ← sees "..." then
      let dots ← take
      let length ← term dots.line (.variadic none)
      let _ ← expect "]"
      term line (.array (some length) (← readType fuel))
    else
      let length ← readExpression 1 fuel
      let _ ← expect "]"
      term line (.array (some length) (← readType fuel))

/-- An expression of operators that bind at least as strongly as `level`. -/
def readExpression (level : Nat) : (fuel : Nat) → Reader Term
  | 0 => failure
  | fuel + 1 => do
    let left ← readOperand fuel
    readOperators level left fuel

/-- The rest of an expression after `left`. -/
def readOperators (level : Nat) (left : Term) : (fuel : Nat) → Reader Term
  | 0 => failure
  | fuel + 1 => do
    match ← next? with
    | some word =>
      let strength := precedence word.text
      if word.kind == .mark && 0 < strength && level ≤ strength then
        let _ ← take
        let right ← readExpression (strength + 1) fuel
        readOperators level (← term left.first (.binary word.text left right)) fuel
      else return left
    | none => return left

def readOperand : (fuel : Nat) → Reader Term
  | 0 => failure
  | fuel + 1 => do
    let some word ← next? | failure
    match word.kind, word.text with
    | .mark, "*" =>
      let _ ← take
      term word.line (.pointer (← readOperand fuel))
    | .mark, "+" | .mark, "-" | .mark, "!" | .mark, "^" | .mark, "&" | .mark, "~" =>
      let _ ← take
      term word.line (.unary word.text (← readOperand fuel))
    | .mark, "(" =>
      let _ ← take
      let inner ← readExpression 1 fuel
      let _ ← expect ")"
      readSuffixes (← term word.line (.paren inner)) fuel
    | .number, _ | .quoted, _ =>
      let _ ← take
      readSuffixes (← term word.line (.literal word.text)) fuel
    | .name, _ =>
      let _ ← take
      readSuffixes (← term word.line (.name word.text)) fuel
    | _, _ => readSuffixes (← readType fuel) fuel

/-- Members, arguments and indices after an operand. -/
def readSuffixes (operand : Term) : (fuel : Nat) → Reader Term
  | 0 => failure
  | fuel + 1 => do
    if ← accept "." then
      let name ← takeName
      readSuffixes (← term operand.first (.member operand name.text name.line)) fuel
    else if ← accept "[" then
      let arguments ← readArguments "]" fuel
      let _ ← expect "]"
      readSuffixes (← term operand.first (.index operand arguments)) fuel
    else if ← accept "(" then
      let arguments ← if ← sees ")" then pure [] else readArguments ")" fuel
      let _ ← expect ")"
      readSuffixes (← term operand.first (.call operand arguments)) fuel
    else return operand

def readArguments (closing : String) : (fuel : Nat) → Reader (List Term)
  | 0 => failure
  | fuel + 1 => do
    let argument ← readExpression 1 fuel
    if ← accept "," then
      if ← sees closing then return [argument] else return argument :: (← readArguments closing fuel)
    else return [argument]

/-- What follows a name and an opening bracket: if a type comes after the closing one, the name is that of
an array; otherwise it is a generic type with its arguments. -/
def readBracketed (name : Term) : (fuel : Nat) → Reader (Option Term × Term)
  | 0 => failure
  | fuel + 1 => do
    let bracket ← expect "["
    if ← accept "]" then return (some name, ← term bracket.line (.array none (← readType fuel)))
    else
      let arguments ← readArguments "]" fuel
      let _ ← expect "]"
      match arguments, ← seesType with
      | [length], true => return (some name, ← term bracket.line (.array (some length) (← readType fuel)))
      | _, _ => return (none, ← term name.first (.index name arguments))

def readFields : (fuel : Nat) → Reader (List Group)
  | 0 => failure
  | fuel + 1 => do
    if ← sees "\x7d" then return []
    else
      let some word ← next? | failure
      let (names, type) ← readField fuel
      let tag ←
        if ← seesKind .quoted then pure (some (← take).text) else pure none
      let last := (← get).last
      let comment ← endOfLine
      return .mk word.line last names type tag comment :: (← readFields fuel)

/-- The names and the type of a field, or the type that a struct embeds. -/
def readField : (fuel : Nat) → Reader (List String × Term)
  | 0 => failure
  | fuel + 1 => do
    if ← seesKind .name then
      let name ← takeName
      let single ← term name.line (.name name.text)
      if (← sees ".") || (← seesKind .quoted) || (← sees ";") || (← sees "\x7d") then
        return ([], ← readQualified single fuel)
      else
        let names := name.text :: (← readNames fuel)
        if names.length = 1 && (← sees "[") then
          match ← readBracketed single fuel with
          | (some _, type) => return (names, type)
          | (none, type) => return ([], type)
        else return (names, ← readType fuel)
    else
      let star ← expect "*"
      return ([], ← term star.line (.pointer (← readTypeName fuel)))

def readNames : (fuel : Nat) → Reader (List String)
  | 0 => failure
  | fuel + 1 => do
    if ← accept "," then
      let name ← takeName
      return name.text :: (← readNames fuel)
    else return []

def readMembers : (fuel : Nat) → Reader (List Group)
  | 0 => failure
  | fuel + 1 => do
    if ← sees "\x7d" then return []
    else
      let some word ← next? | failure
      let (names, type) ← readMember fuel
      let last := (← get).last
      let comment ← endOfLine
      return .mk word.line last names type none comment :: (← readMembers fuel)

def readMember : (fuel : Nat) → Reader (List String × Term)
  | 0 => failure
  | fuel + 1 => do
    if ← seesKind .name then
      let name ← takeName
      if ← sees "(" then
        let signature ← readSignature fuel
        return ([name.text], ← term name.line (.function signature))
      else
        let type ← readQualified (← term name.line (.name name.text)) fuel
        return ([], ← readUnion type fuel)
    else
      let type ← readTypeTerm fuel
      return ([], ← readUnion type fuel)

/-- A type, perhaps with the sign for all types that are made of it. -/
def readTypeTerm : (fuel : Nat) → Reader Term
  | 0 => failure
  | fuel + 1 => do
    if ← sees "~" then
      let sign ← take
      term sign.line (.unary "~" (← readType fuel))
    else readType fuel

def readUnion (left : Term) : (fuel : Nat) → Reader Term
  | 0 => failure
  | fuel + 1 => do
    if ← accept "|" then
      let right ← readTypeTerm fuel
      readUnion (← term left.first (.binary "|" left right)) fuel
    else return left

def readSignature : (fuel : Nat) → Reader Signature
  | 0 => failure
  | fuel + 1 => do
    let parameters ← readRow "(" ")" fuel
    if ← sees "(" then return .mk parameters (some (← readRow "(" ")" fuel))
    else if ← seesType then
      let type ← readType fuel
      return .mk parameters
        (some (.mk type.first type.last [.mk type.first type.last [] type none none]))
    else return .mk parameters none

def readRow (opening closing : String) : (fuel : Nat) → Reader Row
  | 0 => failure
  | fuel + 1 => do
    let front ← expect opening
    let entries ← readEntries closing fuel
    let back ← expect closing
    let groups ← groups? entries
    return .mk front.line back.line groups

def readEntries (closing : String) : (fuel : Nat) → Reader (List Entry)
  | 0 => failure
  | fuel + 1 => do
    if ← sees closing then return []
    else
      let entry ← readParameter fuel
      if ← accept "," then return entry :: (← readEntries closing fuel) else return [entry]

def readParameter : (fuel : Nat) → Reader Entry
  | 0 => failure
  | fuel + 1 => do
    let some word ← next? | failure
    let before ← takeLead fun _ => true
    let remarked (type : Term) : Reader Term := do
      let after ← takeLead closesTerm
      if before == "" && after == "" then return type
      else term type.first (.remarked before after type)
    let finish (name type : Option Term) : Reader Entry := do
      let name ← if type.isNone || before != "" then name.mapM remarked else pure name
      let type ← if name.isNone then type.mapM remarked else pure type
      return { first := word.line, last := (← get).last, name, type }
    if ← seesKind .name then
      let name ← takeName
      let single ← term name.line (.name name.text)
      if ← sees "[" then
        let (name, type) ← readBracketed single fuel
        finish name (some (← readUnion type fuel))
      else if ← sees "." then
        finish none (some (← readUnion (← readQualified single fuel) fuel))
      else if ← sees "..." then finish (some single) (some (← readVariadic fuel))
      else if ← sees "|" then finish none (some (← readUnion single fuel))
      else if (← seesType) || (← sees "~") then
        let type ← readTypeTerm fuel
        finish (some single) (some (← readUnion type fuel))
      else finish (some single) none
    else if ← sees "..." then finish none (some (← readVariadic fuel))
    else
      let type ← readTypeTerm fuel
      finish none (some (← readUnion type fuel))

def readVariadic : (fuel : Nat) → Reader Term
  | 0 => failure
  | fuel + 1 => do
    let dots ← expect "..."
    let type ← readType fuel
    term dots.line (.variadic (some type))

end

/-- The bracket after the name of a declared type opens parameters and no length: a name comes, and after
it a comma or a type. -/
def seesParameters : Reader Bool := do
  match (← get).words with
  | bracket :: name :: after :: _ =>
    return bracket.text == "[" && bracket.kind == .mark && name.kind == .name &&
      (after.kind == .name || [",", "[", "~", "interface", "func", "map", "chan", "struct"].contains after.text)
  | _ => return false

def readTypeDeclaration (fuel : Nat) : Reader Subject := do
  let name ← takeName
  let parameters ←
    if ← seesParameters then pure (some (← readRow "[" "]" fuel)) else pure none
  let same ← accept "="
  return .type name.text parameters same (← readType fuel)

def readMethodDeclaration (fuel : Nat) : Reader Subject := do
  let receiver ← if ← sees "(" then pure (some (← readRow "(" ")" fuel)) else pure none
  let name ← takeName
  let signature ← readSignature fuel
  let _ ← expect "\x7b"
  let _ ← expect "\x7d"
  return .method receiver name.text signature

def readDeclarations : (fuel : Nat) → Reader (List Declared)
  | 0 => failure
  | fuel + 1 => do
    match ← next? with
    | none => return []
    | some word =>
      let subject ←
        if ← accept "type" then readTypeDeclaration fuel
        else if ← accept "func" then readMethodDeclaration fuel
        else failure
      let last := (← get).last
      let comment ← endOfLine
      return { first := word.line, last, subject, comment } :: (← readDeclarations fuel)

def declarations? (text : List Char) : Option (List Declared) := do
  let words := attachComments (← words? (text.length + 1) 1 false text)
  let (declarations, _) ← (readDeclarations (8 * words.length + 8)).run { words }
  return declarations

end LoxLang.Schema.Layout

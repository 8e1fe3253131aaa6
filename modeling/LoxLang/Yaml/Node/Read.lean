import LoxLang.Yaml.Node
import LoxLang.Yaml.Token.Scan

/-! Reading a document from its tokens. -/
namespace LoxLang.Yaml

/-- What is left to read, and the anchors met so far. -/
structure Reading where
  tokens : List Token
  anchors : List (String × Nat) := []
  anchored : List (Nat × Node) := []
  /-- The number of the next anchor. -/
  next : Nat := 0
deriving Inhabited

/-- Reading fails where the text is wrong. -/
abbrev Reader := StateT Reading Option

namespace Reader

/-- The next token. There is one unless the text is wrong there. -/
def peek : Reader Token := do
  let reading ← get
  reading.tokens.head?

def skip : Reader Unit :=
  modify fun reading => { reading with tokens := reading.tokens.drop 1 }

def sees (lexeme : Lexeme) : Reader Bool :=
  return (← peek).lexeme == lexeme

def expect (lexeme : Lexeme) : Reader Unit := do
  if ← sees lexeme then skip else failure

def nameNode (name : String) : Reader Nat := do
  let reading ← get
  set { reading with anchors := (name, reading.next) :: reading.anchors, next := reading.next + 1 }
  return reading.next

def keep (number : Option Nat) (node : Node) : Reader Node := do
  match number with
  | none => return node
  | some number =>
    modify fun reading => { reading with anchored := (number, node) :: reading.anchored }
    return node

end Reader

open Reader

def commonHandles : List (String × String) := [("!", "!"), ("!!", commonTag)]

/-- What stands before a node: its anchor, its tag, and the line where it begins. -/
structure Properties where
  anchor : Option String := none
  tag : String := ""
  line : Nat
deriving Inhabited

/-- The whole tag. A handle has to be known. -/
def wholeTag? (handles : List (String × String)) (handle name : String) : Option String :=
  if handle == "" then some name
  else
    match handles.lookup handle with
    | some front => if front ++ name == "" then none else some (front ++ name)
    | none => none

/-- An anchor and a tag, in either order; each may be missing. -/
def readProperties (handles : List (String × String)) : Reader Properties := do
  let first ← peek
  match first.lexeme with
  | .anchor name =>
    skip
    match (← peek).lexeme with
    | .tag handle rest =>
      skip
      return { anchor := some name, tag := ← wholeTag? handles handle rest, line := first.line }
    | _ => return { anchor := some name, line := first.line }
  | .tag handle rest =>
    skip
    match (← peek).lexeme with
    | .anchor name =>
      skip
      return { anchor := some name, tag := ← wholeTag? handles handle rest, line := first.line }
    | _ => return { tag := ← wholeTag? handles handle rest, line := first.line }
  | _ => return { line := first.line }

/-- The place of a node that an anchor names, which has come before. -/
def readReference (name : String) (line : Nat) : Reader Node := do
  let reading ← get
  match reading.anchors.lookup name with
  | some number => return .reference name number line
  | none => failure

/-- A node of which only the properties are written, and of those at least one. -/
def emptyNode (properties : Properties) (anchor : Option Nat) : Reader Node :=
  if anchor.isNone && properties.tag == "" then failure
  else
    let plain := properties.tag == ""
    keep anchor (.scalar { tag := properties.tag, plain, text := [], line := properties.line })

mutual

/-- A node. Blocks are read only if `block`, and a sequence that is not set in only if `dashes`. -/
def readNode (handles : List (String × String)) (block dashes : Bool) : (fuel : Nat) → Reader Node
  | 0 => failure
  | fuel + 1 => do
    let first ← peek
    if let .reference name := first.lexeme then
      skip
      readReference name first.line
    else
      let properties ← readProperties handles
      let anchor ← properties.anchor.mapM nameNode
      let token ← peek
      match token.lexeme with
      | .blockEntry =>
        if dashes then
          keep anchor (.sequence (← readDashes handles fuel) properties.line)
        else emptyNode properties anchor
      | .scalar text plain =>
        skip
        let plain := (properties.tag == "" && plain) || properties.tag == "!"
        keep anchor (.scalar { tag := properties.tag, plain, text, line := properties.line })
      | .flowSequenceStart =>
        skip
        keep anchor (.sequence (← readFlowItems handles true fuel) properties.line)
      | .flowMappingStart =>
        skip
        keep anchor (.mapping (← readFlowEntries handles true fuel) properties.line)
      | .blockSequenceStart =>
        if block then
          skip
          keep anchor (.sequence (← readBlockItems handles fuel) properties.line)
        else emptyNode properties anchor
      | .blockMappingStart =>
        if block then
          skip
          keep anchor (.mapping (← readBlockEntries handles fuel) properties.line)
        else emptyNode properties anchor
      | _ => emptyNode properties anchor

def readBlockItems (handles : List (String × String)) : (fuel : Nat) → Reader (List Node)
  | 0 => failure
  | fuel + 1 => do
    let token ← peek
    match token.lexeme with
    | .blockEntry =>
      skip
      let item ←
        match (← peek).lexeme with
        | .blockEntry | .blockEnd => pure (.absent token.line)
        | _ => readNode handles true false fuel
      return item :: (← readBlockItems handles fuel)
    | .blockEnd =>
      skip
      return []
    | _ => failure

/-- The items of a sequence that is not set in. -/
def readDashes (handles : List (String × String)) : (fuel : Nat) → Reader (List Node)
  | 0 => failure
  | fuel + 1 => do
    let token ← peek
    match token.lexeme with
    | .blockEntry =>
      skip
      let item ←
        match (← peek).lexeme with
        | .blockEntry | .key | .value | .blockEnd => pure (.absent token.line)
        | _ => readNode handles true false fuel
      return item :: (← readDashes handles fuel)
    | _ => return []

def readBlockEntries (handles : List (String × String)) : (fuel : Nat) → Reader (List (Node × Node))
  | 0 => failure
  | fuel + 1 => do
    let token ← peek
    match token.lexeme with
    | .key =>
      skip
      let key ←
        match (← peek).lexeme with
        | .key | .value | .blockEnd => pure (.absent token.line)
        | _ => readNode handles true true fuel
      let next ← peek
      let value ←
        match next.lexeme with
        | .value =>
          skip
          match (← peek).lexeme with
          | .key | .value | .blockEnd => pure (.absent next.line)
          | _ => readNode handles true true fuel
        | _ => pure (.absent next.line)
      return (key, value) :: (← readBlockEntries handles fuel)
    | .blockEnd =>
      skip
      return []
    | _ => failure

/-- The items of a sequence in brackets, up to the closing one. An item may be a mapping of a single
entry. -/
def readFlowItems (handles : List (String × String)) (first : Bool) : (fuel : Nat) → Reader (List Node)
  | 0 => failure
  | fuel + 1 => do
    if ← sees .flowSequenceEnd then
      skip
      return []
    else
      unless first do expect .flowEntry
      let token ← peek
      match token.lexeme with
      | .flowSequenceEnd =>
        skip
        return []
      | .key =>
        skip
        let entry ← readPair handles fuel
        return .mapping [entry] token.line :: (← readFlowItems handles false fuel)
      | _ =>
        let item ← readNode handles false false fuel
        return item :: (← readFlowItems handles false fuel)

/-- The single entry of a mapping in a sequence, after the token for its key. A token that ends a key
which is not written is skipped. -/
def readPair (handles : List (String × String)) : (fuel : Nat) → Reader (Node × Node)
  | 0 => failure
  | fuel + 1 => do
    let token ← peek
    let key ←
      match token.lexeme with
      | .value | .flowEntry | .flowSequenceEnd =>
        skip
        pure (.absent token.line)
      | _ => readNode handles false false fuel
    let next ← peek
    match next.lexeme with
    | .value =>
      skip
      let after ← peek
      match after.lexeme with
      | .flowEntry | .flowSequenceEnd => return (key, .absent after.line)
      | _ => return (key, ← readNode handles false false fuel)
    | _ => return (key, .absent next.line)

def readFlowEntries (handles : List (String × String)) (first : Bool) :
    (fuel : Nat) → Reader (List (Node × Node))
  | 0 => failure
  | fuel + 1 => do
    if ← sees .flowMappingEnd then
      skip
      return []
    else
      unless first do expect .flowEntry
      let token ← peek
      match token.lexeme with
      | .flowMappingEnd =>
        skip
        return []
      | .key =>
        skip
        let after ← peek
        let key ←
          match after.lexeme with
          | .value | .flowEntry | .flowMappingEnd => pure (.absent after.line)
          | _ => readNode handles false false fuel
        let next ← peek
        let value ←
          match next.lexeme with
          | .value =>
            skip
            let after ← peek
            match after.lexeme with
            | .flowEntry | .flowMappingEnd => pure (.absent after.line)
            | _ => readNode handles false false fuel
          | _ => pure (.absent next.line)
        return (key, value) :: (← readFlowEntries handles false fuel)
      | _ =>
        let key ← readNode handles false false fuel
        let value := Node.absent (← peek).line
        return (key, value) :: (← readFlowEntries handles false fuel)

end

/-- The directives before a document give meanings to handles. -/
def readDirectives (versioned : Bool) (handles : List (String × String)) :
    (fuel : Nat) → Reader (List (String × String))
  | 0 => failure
  | fuel + 1 => do
    match (← peek).lexeme with
    | .version major minor =>
      if versioned || major ≠ 1 || minor ≠ 1 then failure
      skip
      readDirectives true handles fuel
    | .handle handle front =>
      if (handles.lookup handle).isSome then failure
      skip
      readDirectives versioned ((handle, front) :: handles) fuel
    | _ => return handles

/-- The root of a document that begins with a marker is null if nothing follows. -/
def readRoot (handles : List (String × String)) (fuel : Nat) : Reader Node := do
  let token ← peek
  match token.lexeme with
  | .version _ _ | .handle _ _ | .documentStart | .documentEnd | .streamEnd =>
    return .absent token.line
  | _ => readNode handles true false fuel

/-- The first document, if there is one. What comes after it does not matter, as long as the token that
shows its end can be told. -/
def readDocument (fuel : Nat) : Reader (Option Document) := do
  match (← peek).lexeme with
  | .streamEnd => return none
  | .version _ _ | .handle _ _ | .documentStart =>
    let handles ← readDirectives false [] fuel
    expect .documentStart
    finish (← readRoot (handles ++ commonHandles) fuel)
  | _ => finish (← readNode commonHandles true false fuel)
where
  /-- The document with the given root. -/
  finish (root : Node) : Reader (Option Document) := do
    let _ ← peek
    let reading ← get
    return some { root, anchored := reading.anchored, anchors := reading.anchors }

def withoutMark : List Char → List Char
  | '\ufeff' :: rest => rest
  | text => text

def read? (text : List Char) : Option (Option Document) :=
  let text := withoutMark text
  if text.all isReadable then
    let tokens := tokens text
    ((readDocument (4 * tokens.length + 4)).run { tokens }).map Prod.fst
  else none

end LoxLang.Yaml

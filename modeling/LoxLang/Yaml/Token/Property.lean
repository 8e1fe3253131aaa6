import LoxLang.Text.Utf8
import LoxLang.Yaml.Character
import LoxLang.Yaml.Numeral
import LoxLang.Yaml.Token

/-! Reading anchors, tags and directives. Each function gives what it read and what follows. -/
namespace LoxLang.Yaml

/-! Anchors. -/

/-- Characters that may follow the name of an anchor directly. -/
def endsAnchor : List Char → Bool
  | [] => true
  | c :: rest => endsToken (c :: rest) || ['?', ':', ',', ']', '\x7d', '%', '@', '\x60'].contains c

def readAnchor? (text : List Char) : Option (String × List Char) :=
  let name := text.takeWhile isNameChar
  let rest := text.dropWhile isNameChar
  if name.isEmpty || !endsAnchor rest then none else some (String.ofList name, rest)

/-! Tags. -/

def isTagChar (c : Char) : Bool :=
  isNameChar c ||
    [';', '/', '?', ':', '@', '&', '=', '+', '$', ',', '.', '!', '~', '*', '\'', '(', ')', '[', ']'].contains c

def escapedByte? : List Char → Option (Nat × List Char)
  | '%' :: a :: b :: rest => (naturalIn? 16 [a, b]).map (·, rest)
  | _ => none

def encodedWidth? (byte : Nat) : Option Nat :=
  if byte < 0x80 then some 1
  else if byte / 32 = 6 then some 2
  else if byte / 16 = 14 then some 3
  else if byte / 8 = 30 then some 4
  else none

/-- The escapes of the bytes that go on with a character. -/
def followingBytes? : Nat → List Char → Option (List UInt8 × List Char)
  | 0, text => some ([], text)
  | count + 1, text => do
    let (byte, rest) ← escapedByte? text
    guard (byte / 64 = 2)
    let (bytes, rest) ← followingBytes? count rest
    return (UInt8.ofNat byte :: bytes, rest)

def escapedChar? (text : List Char) : Option (List UInt8 × List Char) := do
  let (byte, rest) ← escapedByte? text
  let width ← encodedWidth? byte
  let (bytes, rest) ← followingBytes? (width - 1) rest
  return (UInt8.ofNat byte :: bytes, rest)

/-- The characters of a tag, as bytes, with their escapes read. At most `fuel` characters are read. -/
def tagBytes? : (fuel : Nat) → List Char → Option (List UInt8 × List Char)
  | 0, text => some ([], text)
  | fuel + 1, text =>
    match text with
    | [] => some ([], [])
    | c :: rest =>
      if c == '%' then do
        let (bytes, rest) ← escapedChar? (c :: rest)
        let (more, rest) ← tagBytes? fuel rest
        return (bytes ++ more, rest)
      else if isTagChar c then do
        let (more, rest) ← tagBytes? fuel rest
        return ((String.singleton c).toUTF8.toList ++ more, rest)
      else some ([], c :: rest)

def readTagText? (text : List Char) : Option (String × List Char) := do
  let (bytes, rest) ← tagBytes? text.length text
  return (String.ofList (Text.decodeUtf8 bytes), rest)

/-- The handle of a tag, which begins with an exclamation mark and may end in one. -/
def readHandle? : List Char → Option (String × List Char)
  | '!' :: text =>
    let name := text.takeWhile isNameChar
    match text.dropWhile isNameChar with
    | '!' :: rest => some (String.ofList ('!' :: name ++ ['!']), rest)
    | rest => some (String.ofList ('!' :: name), rest)
  | _ => none

/-- The handle is one, and not the beginning of a tag without. -/
def isHandle (handle : String) : Bool :=
  match handle.toList with
  | '!' :: rest => rest.getLast? == some '!'
  | _ => false

/-- A tag: its handle, and what comes after that. A tag that is given in full has no handle, and
neither has the one that is just an exclamation mark. -/
def readTag? (text : List Char) : Option (String × String × List Char) := do
  let (handle, name, rest) ←
    match text with
    | '!' :: '<' :: rest => do
      let (name, rest) ← readTagText? rest
      guard (name ≠ "")
      let '>' :: rest := rest | none
      pure ("", name, rest)
    | _ => do
      let (handle, rest) ← readHandle? text
      let (name, rest) ← readTagText? rest
      if isHandle handle then
        guard (name ≠ "")
        pure (handle, name, rest)
      else
        let name := String.ofList (handle.toList.drop 1) ++ name
        pure (if name = "" then ("", "!", rest) else ("!", name, rest))
  guard (endsToken rest)
  return (handle, name, rest)

/-! Directives. -/

def readVersionNumber? (text : List Char) : Option (Nat × List Char) :=
  let digits := text.takeWhile Char.isDigit
  if digits.isEmpty || 2 < digits.length then none
  else some (Number.digitsValue digits, text.dropWhile Char.isDigit)

def readVersion? (text : List Char) : Option (Lexeme × List Char) := do
  let (major, rest) ← readVersionNumber? (text.dropWhile isBlank)
  let '.' :: rest := rest | none
  let (minor, rest) ← readVersionNumber? rest
  return (.version major minor, rest)

def readHandleMeaning? (text : List Char) : Option (Lexeme × List Char) := do
  let (handle, rest) ← readHandle? (text.dropWhile isBlank)
  guard (isHandle handle || handle = "!")
  guard ((rest.head?.map isBlank).getD false)
  let (front, rest) ← readTagText? (rest.dropWhile isBlank)
  guard (front ≠ "" && endsToken rest)
  return (.handle handle front, rest)

def readDirective? (text : List Char) : Option (Lexeme × List Char) := do
  let name := String.ofList (text.takeWhile isNameChar)
  let rest := text.dropWhile isNameChar
  guard (endsToken rest)
  let (directive, rest) ←
    if name = "YAML" then readVersion? rest
    else if name = "TAG" then readHandleMeaning? rest
    else none
  let rest ← skipLineEnd? rest
  return (directive, rest)

end LoxLang.Yaml

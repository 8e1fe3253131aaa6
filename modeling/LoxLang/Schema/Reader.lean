import LoxLang.Schema
import LoxLang.Schema.Lexeme

/-! Reading schemas. Imports, each a quoted path, come first, then declarations such as

    type Name = kind;
    type Name = | Case of kind | Case of { field: kind, field: kind };

A kind is an identifier or a quoted text. No word is reserved: what a word means depends only on where
it stands, and a fixed word may also be quoted. -/
namespace LoxLang.Schema

namespace Lexeme

/-- The fixed word `text` is meant. -/
def is (l : Lexeme) (text : String) : Bool :=
  l.text == text

def isIdentifier (l : Lexeme) : Bool :=
  l.kind == .identifier

/-- The word can stand for a type. -/
def isKind (l : Lexeme) : Bool :=
  l.kind != .other

end Lexeme

def readFields? : List Lexeme → Option (List Field × List Lexeme)
  | name :: colon :: kind :: next :: rest =>
    if name.isIdentifier && colon.is ":" && kind.isKind then
      let field : Field := { name := name.text, kind := kind.text }
      if next.is "\x7d" then some ([field], rest)
      else if next.is "," then
        (readFields? rest).map fun (fields, left) => (field :: fields, left)
      else none
    else none
  | _ => none

/-- What a case holds, after the word `of`. -/
def readPayload? : List Lexeme → Option (Payload × List Lexeme)
  | [] => none
  | first :: rest =>
    if first.isKind then some (.type first.text, rest)
    else if first.is "\x7b" then
      match rest with
      | [] => none
      | next :: left =>
        if next.is "\x7d" then some (.record [], left)
        else (readFields? rest).map fun (fields, left) => (.record fields, left)
    else none

/-- A case, after the bar in front of it. -/
def readCase? : List Lexeme → Option (Case × List Lexeme)
  | name :: word :: rest =>
    if name.isIdentifier && word.is "of" then
      (readPayload? rest).map fun (payload, left) => ({ name := name.text, payload }, left)
    else none
  | _ => none

theorem readFields?_length {words left : List Lexeme} {fields : List Field}
    (found : readFields? words = some (fields, left)) : left.length < words.length := by
  fun_induction readFields? words generalizing fields with
  | case1 =>
    cases found
    simp only [List.length_cons]
    omega
  | case2 =>
    rename_i ih
    obtain ⟨fields, found⟩ := exists_of_map found fun _ => rfl
    have shorter := ih found
    simp only [List.length_cons]
    omega
  | case3 | case4 | case5 => contradiction

theorem readPayload?_length {words left : List Lexeme} {payload : Payload}
    (found : readPayload? words = some (payload, left)) : left.length < words.length := by
  revert found
  fun_cases readPayload? words with
  | case1 | case3 | case6 =>
    intro found
    contradiction
  | case2 =>
    rintro ⟨⟩
    exact Nat.lt_succ_self _
  | case4 =>
    rintro ⟨⟩
    exact Nat.lt_succ_of_lt (Nat.lt_succ_self _)
  | case5 =>
    intro found
    obtain ⟨fields, found⟩ := exists_of_map found fun _ => rfl
    exact Nat.lt_succ_of_lt (readFields?_length found)

/-- A case takes at least one word. -/
theorem readCase?_length {words left : List Lexeme} {case_ : Case}
    (found : readCase? words = some (case_, left)) : left.length < words.length := by
  revert found
  fun_cases readCase? words with
  | case1 =>
    intro found
    obtain ⟨payload, found⟩ := exists_of_map found fun _ => rfl
    exact Nat.lt_succ_of_lt (Nat.lt_succ_of_lt (readPayload?_length found))
  | case2 | case3 =>
    intro found
    contradiction

/-- The cases of a sum type, each with a bar in front, up to and with the semicolon. -/
def readCases? : List Lexeme → Option (List Case × List Lexeme)
  | [] => none
  | first :: rest =>
    if first.is ";" then some ([], rest)
    else if first.is "|" then
      match _h : readCase? rest with
      | none => none
      | some (case_, left) =>
        (readCases? left).map fun (cases, left) => (case_ :: cases, left)
    else none
termination_by words => words.length
decreasing_by exact Nat.lt_succ_of_lt (readCase?_length ‹_›)

/-- The body of a declaration, up to and with the semicolon. A sum type has a case. -/
def readBody? : List Lexeme → Option (Body × List Lexeme)
  | first :: rest =>
    if first.isKind then
      match rest with
      | stop :: left => if stop.is ";" then some (.plain first.text, left) else none
      | [] => none
    else
      match readCases? (first :: rest) with
      | some (case_ :: cases, left) => some (.sum (case_ :: cases), left)
      | _ => none
  | [] => none

theorem readCases?_length {words left : List Lexeme} {cases : List Case}
    (found : readCases? words = some (cases, left)) : left.length < words.length := by
  fun_induction readCases? words generalizing cases with
  | case1 | case3 | case5 => contradiction
  | case2 =>
    cases found
    exact Nat.lt_succ_self _
  | case4 first rest _ _ case_ more read ih =>
    obtain ⟨cases, found⟩ := exists_of_map found fun _ => rfl
    exact Nat.lt_succ_of_lt (Nat.lt_trans (ih found) (readCase?_length read))

theorem readBody?_length {words left : List Lexeme} {body : Body}
    (found : readBody? words = some (body, left)) : left.length < words.length := by
  revert found
  fun_cases readBody? words with
  | case1 =>
    rintro ⟨⟩
    exact Nat.lt_succ_of_lt (Nat.lt_succ_self _)
  | case4 first rest _ case_ cases left read =>
    rintro ⟨⟩
    exact readCases?_length read
  | case2 | case3 | case5 | case6 =>
    intro found
    contradiction

def readDeclarations? : List Lexeme → Option (List Declaration)
  | [] => some []
  | word :: name :: equals :: rest =>
    if word.is "type" && name.isIdentifier && equals.is "=" then
      match _h : readBody? rest with
      | none => none
      | some (body, left) =>
        (readDeclarations? left).map ({ name := name.text, body } :: ·)
    else none
  | _ => none
termination_by words => words.length
decreasing_by
  have shorter := readBody?_length ‹_›
  simp only [List.length_cons]
  omega

def readImports : List Lexeme → List String × List Lexeme
  | word :: path :: stop :: rest =>
    if word.is "import" && path.kind == .quoted && stop.is ";" then
      let (paths, left) := readImports rest
      (path.text :: paths, left)
    else ([], word :: path :: stop :: rest)
  | words => ([], words)

/-- The schema that a text spells. One that declares and imports nothing is no schema, and neither is
a text with the character zero. A mark of the byte order may stand in front. -/
def read? (text : List Char) : Option Schema := do
  let text := match text with
    | '\ufeff' :: rest => rest
    | _ => text
  if text.contains '\x00' then none
  else
    let words ← lexemes? text
    let (imports, left) := readImports words
    let declarations ← readDeclarations? left
    if imports.isEmpty && declarations.isEmpty then none else some { imports, declarations }

end LoxLang.Schema

import LoxLang.Text.Digit
import LoxLang.Text.Letter
import LoxLang.Text.Utf8

/-! The words of a schema: identifiers, quoted texts, and single characters. Blanks and comments
separate them. -/
namespace LoxLang.Schema

inductive LexemeKind where
  | identifier
  | quoted
  | raw
  | other
deriving DecidableEq, Inhabited, Repr

/-- A word, with the text that it stands for: that of a quoted one is without its quotes. -/
structure Lexeme where
  kind : LexemeKind
  text : String
deriving DecidableEq, Inhabited, Repr

def continuesIdentifier (c : Char) : Bool :=
  Text.startsWord c || Text.isDecimalDigit c

/-! Escapes in quoted texts. -/

/-- The number that exactly `count` digits at the front spell. -/
def numberIn? (base count : Nat) (text : List Char) : Option Nat := do
  let digits ← (text.take count).mapM Text.digitValue?
  if digits.length = count ∧ digits.all (· < base) then
    some (digits.foldl (fun n d => n * base + d) 0)
  else none

def utf8Of (c : Char) : List UInt8 :=
  (String.singleton c).toUTF8.toList

def controlEscapes : List (Char × UInt8) :=
  [('a', 7), ('b', 8), ('f', 12), ('n', 10), ('r', 13), ('t', 9), ('v', 11), ('\\', 92)]

/-- The bytes of an escape whose first character is `letter`, and how many characters it takes after
that one. Only the double quote can be escaped, and only where it quotes. -/
def escape? (quote letter : Char) (rest : List Char) : Option (List UInt8 × Nat) :=
  let character (count : Nat) : Option (List UInt8 × Nat) :=
    (numberIn? 16 count rest).bind fun n =>
      if n.isValidChar then some (utf8Of (Char.ofNat n), count) else none
  match controlEscapes.lookup letter with
  | some b => some ([b], 0)
  | none =>
    if letter == '"' then if quote == '"' then some ([34], 0) else none
    else if letter == 'x' then (numberIn? 16 2 rest).map fun n => ([UInt8.ofNat n], 2)
    else if letter == 'u' then character 4
    else if letter == 'U' then character 8
    else
      (numberIn? 8 3 (letter :: rest)).bind fun n =>
        if n < 256 then some ([UInt8.ofNat n], 2) else none

def unescape? (quote : Char) : List Char → Option (List UInt8)
  | [] => some []
  | c :: rest =>
    if c == '\\' then
      match rest with
      | [] => none
      | letter :: rest =>
        match escape? quote letter rest with
        | none => none
        | some (bytes, count) => (unescape? quote (rest.drop count)).map (bytes ++ ·)
    else if c == '"' then none
    else (unescape? quote rest).map (utf8Of c ++ ·)
termination_by text => text.length
decreasing_by all_goals simp only [List.length_drop, List.length_cons]; omega

/-! Cutting words off. -/

/-- What stands before the closing quote, with its escapes, and what stands behind it. A quoted text
does not go over a line end. -/
def quotedSpan? (quote : Char) : List Char → Option (List Char × List Char)
  | [] => none
  | c :: rest =>
    if c == quote then some ([], rest)
    else if c == '\n' then none
    else if c == '\\' then
      match rest with
      | [] => none
      | letter :: rest => (quotedSpan? quote rest).map fun (span, left) => (c :: letter :: span, left)
    else (quotedSpan? quote rest).map fun (span, left) => (c :: span, left)

def afterBlock? : List Char → Option (List Char)
  | [] => none
  | '*' :: '/' :: rest => some rest
  | _ :: rest => afterBlock? rest

/-- A quoted text. In single quotes, one that is a character or none is a word of its own kind. -/
def cutQuoted? (quote : Char) (rest : List Char) : Option (Lexeme × List Char) := do
  let (span, left) ← quotedSpan? quote rest
  let bytes ← unescape? quote span
  let text := Text.decodeUtf8 bytes
  let kind := if quote == '\'' && text.length ≤ 1 then .other else .quoted
  some ({ kind, text := String.ofList text }, left)

/-- The first word of a text that begins with `c`, or none if a blank or a comment stands there, and
what comes after that. -/
def cut? (c : Char) (rest : List Char) : Option (Option Lexeme × List Char) :=
  match c with
  | ' ' | '\t' | '\r' | '\n' => some (none, rest)
  | '"' | '\'' => (cutQuoted? c rest).map fun (word, left) => (some word, left)
  | '\x60' =>
    match rest.dropWhile (· != '\x60') with
    | [] => none
    | _ :: left => some (some ⟨.raw, String.ofList (rest.takeWhile (· != '\x60'))⟩, left)
  | '/' =>
    match rest with
    | '/' :: rest => some (none, rest.dropWhile (· != '\n'))
    | '*' :: rest => (afterBlock? rest).map fun left => (none, left)
    | _ => some (some ⟨.other, "/"⟩, rest)
  | _ =>
    if Text.startsWord c then
      some (some ⟨.identifier, String.ofList (c :: rest.takeWhile continuesIdentifier)⟩,
        rest.dropWhile continuesIdentifier)
    else some (some ⟨.other, String.singleton c⟩, rest)

/-- A reader whose result is changed leaves what it has left before. -/
theorem exists_of_map {found : Option (α × γ)} {change : α × γ → β × γ}
    (changed : found.map change = some (b, left)) (keeps : ∀ pair, (change pair).2 = pair.2) :
    ∃ a, found = some (a, left) := by
  obtain ⟨⟨a, rest⟩, same, result⟩ := Option.map_eq_some_iff.mp changed
  obtain rfl : rest = left := (keeps (a, rest)).symm.trans (congrArg Prod.snd result)
  exact ⟨a, same⟩

theorem quotedSpan?_length {quote : Char} {text span left : List Char}
    (found : quotedSpan? quote text = some (span, left)) : left.length < text.length := by
  fun_induction quotedSpan? quote text generalizing span with
  | case1 | case3 | case4 => contradiction
  | case2 =>
    cases found
    exact Nat.lt_succ_self _
  | case5 _ _ _ _ _ _ ih =>
    obtain ⟨span, found⟩ := exists_of_map found fun _ => rfl
    exact Nat.lt_succ_of_lt (Nat.lt_succ_of_lt (ih found))
  | case6 _ _ _ _ _ ih =>
    obtain ⟨span, found⟩ := exists_of_map found fun _ => rfl
    exact Nat.lt_succ_of_lt (ih found)

theorem afterBlock?_length {text left : List Char} (found : afterBlock? text = some left) :
    left.length < text.length := by
  fun_induction afterBlock? text with
  | case1 => contradiction
  | case2 =>
    cases found
    exact Nat.lt_succ_of_lt (Nat.lt_succ_self _)
  | case3 _ _ _ ih => exact Nat.lt_succ_of_lt (ih found)

theorem cutQuoted?_length {quote : Char} {rest left : List Char} {word : Lexeme}
    (found : cutQuoted? quote rest = some (word, left)) : left.length < rest.length := by
  simp only [cutQuoted?, Option.bind_eq_bind, Option.bind_eq_some_iff, Option.some.injEq,
    Prod.mk.injEq] at found
  obtain ⟨⟨span, left⟩, spanned, _, _, _, rfl⟩ := found
  exact quotedSpan?_length spanned

/-- Every word, blank and comment takes at least one character. -/
theorem cut?_length {c : Char} {rest left : List Char} {word : Option Lexeme}
    (found : cut? c rest = some (word, left)) : left.length ≤ rest.length := by
  unfold cut? at found
  split at found
  case h_1 | h_2 | h_3 | h_4 =>
    cases found
    exact Nat.le_refl _
  case h_5 | h_6 =>
    obtain ⟨word, found⟩ := exists_of_map found fun _ => rfl
    exact Nat.le_of_lt (cutQuoted?_length found)
  case h_7 =>
    split at found
    · contradiction
    · rename_i behind
      cases found
      have kept := (List.dropWhile_suffix (l := rest) (· != '\x60')).length_le
      rw [behind] at kept
      exact Nat.le_of_succ_le kept
  case h_8 =>
    split at found
    · cases found
      exact Nat.le_succ_of_le (List.dropWhile_suffix _).length_le
    · obtain ⟨left, ends, ⟨⟩⟩ := Option.map_eq_some_iff.mp found
      exact Nat.le_succ_of_le (Nat.le_of_lt (afterBlock?_length ends))
    · cases found
      exact Nat.le_refl _
  case h_9 =>
    split at found <;> cases found
    · exact (List.dropWhile_suffix _).length_le
    · exact Nat.le_refl _

/-- The words of a text, in order. A quoted text or a comment that is not closed, or an escape that
means nothing, makes the text wrong. -/
def lexemes? : List Char → Option (List Lexeme)
  | [] => some []
  | c :: rest =>
    match _h : cut? c rest with
    | none => none
    | some (word, left) => (lexemes? left).map (word.toList ++ ·)
termination_by text => text.length
decreasing_by exact Nat.lt_succ_of_le (cut?_length ‹_›)

end LoxLang.Schema

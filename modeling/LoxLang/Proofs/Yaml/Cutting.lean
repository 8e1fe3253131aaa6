import LoxLang.Yaml.Token.Scan
import LoxLang.Proofs.Yaml.Folding

/-! The tokens of a mapping of scalars that is written line by line. Three steps cut an entry: the key,
which at first might be a value, the colon, which makes a key of it, and the value. Each step leads from
one of three kinds of states to the next, and the value leads back to the beginning of a line. -/
namespace LoxLang.Yaml

/-! Positions. -/

theorem Position.column_after_newline {front : List Char} (p : Position) (ordinary : ∀ c ∈ front, c ≠ '\r') :
    (p.after (front ++ ['\n'])).column = 0 := by
  induction front generalizing p with
  | nil => rfl
  | cons c front ih =>
    have first := ordinary c List.mem_cons_self
    rw [List.cons_append, Position.after.eq_3 _ _ _ (fun _ same => absurd same first)]
    split <;> exact ih _ fun d member => ordinary d (List.mem_cons_of_mem c member)

theorem Position.after_line {front : List Char} (p : Position) (line : ∀ c ∈ front, Printable c) :
    p.after front = { p with index := p.index + front.length, column := p.column + front.length } := by
  induction front generalizing p with
  | nil => rfl
  | cons c front ih =>
    have first := line c List.mem_cons_self
    rw [Position.after.eq_3 _ _ _ (fun _ same => absurd same first.ne_return), if_neg (by simp [first.isBreak]),
      ih _ fun d member => line d (List.mem_cons_of_mem c member)]
    simp only [List.length_cons]
    congr 1 <;> omega

theorem Cursor.goTo_append {c : Cursor} {front back : List Char} (here : c.rest = front ++ back) :
    c.goTo back = { position := c.position.after front, rest := back } := by
  simp [Cursor.goTo, here]

/-! Words and lines. -/

/-- The characters of the names of fields. -/
def WordChar (c : Char) : Prop := ('a' ≤ c ∧ c ≤ 'z') ∨ c = '_'

instance : DecidablePred WordChar := fun c => inferInstanceAs (Decidable (('a' ≤ c ∧ c ≤ 'z') ∨ c = '_'))

theorem WordChar.ne (word : WordChar c) (other : ¬WordChar d) : c ≠ d := by
  rintro rfl
  exact other word

theorem WordChar.printable (word : WordChar c) : Printable c := by
  rcases word with ⟨low, high⟩ | rfl
  · exact ⟨Char.le_trans (by decide) low, Char.le_trans high (by decide)⟩
  · decide

theorem WordChar.not_isIndicator (word : WordChar c) : isIndicator c = false :=
  Yaml.not_isIndicator (fun d => decide (WordChar d)) (decide_eq_true word) (by decide)

structure Word (key : List Char) : Prop where
  nonempty : key ≠ []
  chars : ∀ c ∈ key, WordChar c
  short : key.length ≤ Scan.longestKey

/-- What follows a line: nothing, or a line that is not set in and holds no comment. -/
def StartsLine (text : List Char) : Prop := ∀ c ∈ text.head?, Printable c ∧ c ≠ ' ' ∧ c ≠ '#'

theorem Word.startsLine (word : Word key) (rest : List Char) : StartsLine (key ++ rest) := by
  obtain ⟨c, key, rfl⟩ := List.exists_cons_of_ne_nil word.nonempty
  have first := word.chars c List.mem_cons_self
  simpa [StartsLine] using ⟨first.printable, first.ne (by decide), first.ne (by decide)⟩

theorem Word.staysPlain (word : Word key) : staysPlain false key = true :=
  staysPlain_of_ne (fun c member =>
    ⟨(word.chars c member).ne (by decide), (word.chars c member).ne (by decide)⟩) false

theorem Word.beginsPlain (word : Word key) (rest : List Char) : beginsPlain (key ++ rest) = true := by
  obtain ⟨c, key, rfl⟩ := List.exists_cons_of_ne_nil word.nonempty
  have first := word.chars c List.mem_cons_self
  simp [Yaml.beginsPlain, first.ne (d := '-') (by decide), first.ne (d := '?') (by decide),
    first.ne (d := ':') (by decide), first.not_isIndicator, first.printable.not_isBlank (first.ne (by decide))]

theorem Word.not_startsDocument (word : Word key) (rest : List Char) :
    startsDocument (key ++ rest) = false := by
  obtain ⟨c, key, rfl⟩ := List.exists_cons_of_ne_nil word.nonempty
  have first := word.chars c List.mem_cons_self
  unfold startsDocument
  split
  · rename_i same
    exact absurd (List.cons.inj same).1 (first.ne (by decide))
  · rename_i same
    exact absurd (List.cons.inj same).1 (first.ne (by decide))
  · rfl

theorem Word.printable (word : Word key) : ∀ c ∈ key, Printable c :=
  fun c member => (word.chars c member).printable

theorem Word.scalarLine (word : Word key) : ScalarLine (key ++ ['\n']) key true :=
  scalarLine_word (fun c member => (word.chars c member).ne (by decide))
    (List.append_nil key ▸ word.beginsPlain []) word.staysPlain

/-- A key ends at the colon. -/
theorem Word.readPlain? (word : Word key) (shallow : margin ≤ inset.length) (rest : List Char) :
    readPlain? false margin {} (key ++ ':' :: ' ' :: rest) =
      some { text := key, rest := ':' :: ' ' :: rest, broken := false } := by
  have solid : ∀ c ∈ key, c ≠ ' ' := fun c member => (word.chars c member).ne (by decide)
  have stops : Yaml.readPlain? false margin {} (':' :: ' ' :: rest) =
      some { text := [], rest := ':' :: ' ' :: rest, broken := false } := by
    rw [readPlain?.eq_3 _ _ _ _ _ (by simp), if_neg (by decide), if_neg (by decide),
      if_pos (by simp [endsPlain, endsToken, isBlank])]
  exact readPlain?_line (.of_solid solid) word.printable word.staysPlain
    (fun last => solid _ (List.mem_of_mem_getLast? last) rfl) shallow stops

/-- A plain scalar ends at a line that is not set in as far as the margin. -/
theorem StartsLine.readPlain? (starts : StartsLine rest) (deep : 0 < margin) :
    readPlain? false margin {} ('\n' :: rest) = some { text := [], rest, broken := true } := by
  rw [readPlain?.eq_3 _ _ _ _ _ (by simp), if_neg (by decide), if_pos (by rfl)]
  cases rest with
  | nil => rfl
  | cons c rest =>
    obtain ⟨printable, solid, -⟩ := starts c rfl
    rw [readPlain?.eq_3 _ _ _ _ _ (fun _ same => absurd same printable.ne_return),
      if_neg (by simp [printable.not_isBlank solid]), if_neg (by simp [printable.isBreak]),
      if_pos (by simp [Gap.endsPlain, Gap.lineBreak, deep])]
    rfl

theorem StartsLine.skipBlanks (starts : StartsLine rest) :
    Scan.skipBlanks false true false rest = (rest, true) := by
  cases rest with
  | nil => rfl
  | cons c rest =>
    obtain ⟨printable, solid, comment⟩ := starts c rfl
    rw [Scan.skipBlanks.eq_3 _ _ _ _ _ (fun _ same => absurd same printable.ne_return),
      if_neg (by simp [printable.isBreak]), if_neg (by simp [solid]), if_neg (by simpa using comment)]

namespace Scan

/-! States. -/

/-- Before a line outside of the mapping or, when that has been `opened`, inside. Of the tokens only the
lexemes matter. -/
structure AtLine (s : Scan) (opened : Bool) (text : List Char) (lexemes : List Lexeme) : Prop where
  tokens : s.tokens.map Token.lexeme = lexemes
  margin : s.margin = opened.toNat
  margins : s.margins = if opened then [0] else []
  keys : s.keys = [none]
  keyAllowed : s.toToken.keyAllowed = true
  rest : s.toToken.rest = text
  column : s.toToken.column = 0

/-- Before the colon after a key, which is the last token. -/
structure AtColon (s : Scan) (opened : Bool) (text : List Char) (key : List Char) (lexemes : List Lexeme) :
    Prop where
  tokens : s.tokens.map Token.lexeme = .scalar key true :: lexemes
  margin : s.margin = opened.toNat
  margins : s.margins = if opened then [0] else []
  keys : ∃ place, s.keys = [some place] ∧ place.count = lexemes.length ∧ place.position.column = 0 ∧
    s.isStale place = false
  rest : s.rest = ':' :: ' ' :: text

/-- Before the blank after a colon. -/
structure AtValue (s : Scan) (text : List Char) (lexemes : List Lexeme) : Prop where
  tokens : s.tokens.map Token.lexeme = lexemes
  margin : s.margin = 1
  margins : s.margins = [0]
  keys : s.keys = [none]
  keyAllowed : s.keyAllowed = false
  rest : s.rest = ' ' :: text

/-! Steps. -/

variable {s : Scan} {c : Char} {key text more : List Char} {lexemes : List Lexeme} {opened : Bool}

theorem endBlocksTo_of_le (shallow : s.margin ≤ target) : s.endBlocksTo target = s := by
  have kept : ∀ margins,
      endBlocks s.position.line target s.margin s.tokens margins = (s.margin, margins, s.tokens)
    | [] => rfl
    | outer :: margins => if_neg (Nat.not_lt.mpr shallow)
  unfold endBlocksTo
  split
  · rfl
  · rw [kept]

theorem dropStale?_of_fresh (fresh : ∀ place, some place ∈ s.keys → s.isStale place = false) :
    s.dropStale? = some s := by
  have kept : s.keys.map (fun key => key.filter fun place => !s.isStale place) = s.keys := by
    refine (List.map_congr_left fun key member => ?_).trans (List.map_id _)
    cases key with
    | none => rfl
    | some place => simp [fresh place member]
  have none : (s.keys.any fun key => key.any fun place => place.required && s.isStale place) = false := by
    refine List.any_eq_false.mpr fun key member => ?_
    cases key with
    | none => simp
    | some place => simp [fresh place member]
  rw [dropStale?, if_neg (by simp [none]), kept]

theorem next?_of_fresh (fresh : ∀ place, some place ∈ s.keys → s.toToken.isStale place = false)
    (shallow : s.margin ≤ s.toToken.column + 1) (here : s.toToken.rest = c :: more) :
    s.next? = s.toToken.takeToken? c more := by
  have level : s.toToken.endBlocksTo (s.toToken.column + 1) = s.toToken := endBlocksTo_of_le shallow
  have kept : s.toToken.dropStale? = some s.toToken := dropStale?_of_fresh fresh
  simp only [next?, kept, Option.bind_eq_bind, Option.bind_some, level, here]

/-- A plain scalar outside of brackets is what is left when no other token begins. -/
theorem takeToken?_plain (block : s.inFlow = false) (begins : beginsPlain (c :: more) = true)
    (marker : s.column = 0 → startsDocument (c :: more) = false) : s.takeToken? c more = s.takePlain? := by
  have apart : (s.column == 0 && startsDocument (c :: more)) = false := by
    cases column : s.column == 0 with
    | false => rfl
    | true => exact marker (by simpa using column)
  by_cases special : (c == '-' || c == '?' || c == ':') = true
  · have goes : endsToken more = false := by simpa [beginsPlain, special] using begins
    simp only [Bool.or_eq_true, beq_iff_eq] at special
    rcases special with (rfl | rfl) | rfl <;>
      simp [takeToken?, apart, block, goes, startsPlain]
  · have solid : isIndicator c = false ∧ isBlank c = false := by simpa [beginsPlain, special] using begins
    have other : ∀ d, isIndicator d = true → c ≠ d := by
      rintro d indicates rfl
      simp [solid.1] at indicates
    simp only [Bool.or_eq_true, beq_iff_eq, not_or] at special
    simp [takeToken?, apart, block, startsPlain, solid, special, other '%' (by decide), other '[' (by decide),
      other '\x7b' (by decide), other ']' (by decide), other '\x7d' (by decide), other ',' (by decide),
      other '*' (by decide), other '&' (by decide), other '!' (by decide), other '|' (by decide),
      other '>' (by decide), other '\'' (by decide), other '"' (by decide)]

theorem inFlow_of_single {place : Option KeyPlace} (single : s.keys = [place]) : s.inFlow = false := by
  simp [inFlow, single]

theorem position_goTo {front : List Char} (here : s.rest = front ++ more) :
    (s.goTo more).position = s.position.after front := by
  rw [position, goTo, Cursor.goTo_append here]
  rfl

theorem isStale_near {place : KeyPlace} (line : s.position.line = place.position.line)
    (near : s.position.index ≤ place.position.index + longestKey) : s.isStale place = false := by
  simp [isStale, line, near]

/-- The key itself is cut like any plain scalar, and its place is noted. -/
theorem takePlain?_key (word : Word key) (tokens : s.tokens.map Token.lexeme = lexemes)
    (shallow : s.margin ≤ 1) (keys : s.keys = [none]) (allowed : s.keyAllowed = true)
    (here : s.rest = key ++ ':' :: ' ' :: more) (column : s.column = 0) :
    ∃ s', s.takePlain? = some s' ∧ s'.margin = s.margin ∧ s'.margins = s.margins ∧
      s'.tokens.map Token.lexeme = .scalar key true :: lexemes ∧ s'.rest = ':' :: ' ' :: more ∧
      ∃ place, s'.keys = [some place] ∧ place.count = lexemes.length ∧ place.position.column = 0 ∧
        s'.isStale place = false := by
  let place : KeyPlace := {
    count := s.tokens.length, position := s.position, required := !s.inFlow && s.margin == s.column + 1 }
  let marked : Scan := { s with keys := [some place] }
  have mark : s.markKey? = some marked := by
    simp [markKey?, dropKey?, allowed, keys, marked, place]
  have read : readPlain? marked.inFlow marked.margin {} marked.rest =
      some { text := key, rest := ':' :: ' ' :: more, broken := false } := by
    rw [show marked.rest = _ from here]
    exact word.readPlain? (Nat.le_succ_of_le shallow) more
  have cut : s.takePlain? =
      some { marked.take (.scalar key true) (':' :: ' ' :: more) with keyAllowed := false } := by
    simp [takePlain?, mark, read]
  have moved : (marked.take (.scalar key true) (':' :: ' ' :: more)).position =
      { s.position with index := s.position.index + key.length, column := s.position.column + key.length } := by
    rw [← Position.after_line s.position word.printable]
    exact position_goTo here
  refine ⟨_, cut, rfl, rfl, ?_, rfl, place, rfl, ?_, column, ?_⟩
  · simp [take, push, goTo, marked, tokens]
  · simp [place, ← tokens]
  · refine isStale_near (show (marked.take _ _).position.line = _ by rw [moved]) ?_
    show (marked.take _ _).position.index ≤ _
    rw [moved]
    exact Nat.add_le_add_left word.short _

theorem AtLine.next?_key (here : AtLine s opened (key ++ ':' :: ' ' :: more) lexemes) (word : Word key) :
    ∃ s', s.next? = some s' ∧ AtColon s' opened more key lexemes := by
  have shallow : s.margin ≤ 1 := by
    rw [here.margin]
    exact Bool.toNat_le opened
  have keys : s.toToken.keys = [none] := here.keys
  have cut : s.next? = s.toToken.takePlain? := by
    obtain ⟨c, tail, rfl⟩ := List.exists_cons_of_ne_nil word.nonempty
    rw [next?_of_fresh (by simp [here.keys]) (Nat.le_add_left_of_le shallow) here.rest]
    exact takeToken?_plain (inFlow_of_single keys) (word.beginsPlain _) fun _ => word.not_startsDocument _
  obtain ⟨s', taken, margin, margins, tokens, rest, place⟩ := takePlain?_key (s := s.toToken) word here.tokens
    shallow keys here.keyAllowed here.rest here.column
  exact ⟨s', cut.trans taken, tokens, margin.trans here.margin, margins.trans here.margins, place, rest⟩

theorem toToken_of_stop (stop : skipBlanks s.inFlow s.keyAllowed false s.rest = (s.rest, s.keyAllowed)) :
    s.toToken = s := by
  have same : s.cursor.goTo s.rest = s.cursor := Cursor.goTo_append (show s.cursor.rest = [] ++ s.rest from rfl)
  simp [toToken, stop, goTo, same]

theorem map_insert {newest : Lexeme} (tokens : s.tokens.map Token.lexeme = newest :: lexemes) (line : Nat)
    (inserted : List Lexeme) : (s.insert lexemes.length line inserted).tokens.map Token.lexeme =
      newest :: (inserted.reverse ++ lexemes) := by
  obtain ⟨token, older, same, rfl, rfl⟩ := List.map_eq_cons_iff.mp tokens
  simp [insert, same, Function.comp_def]

theorem AtColon.next?_colon (here : AtColon s opened more key lexemes) :
    ∃ s', s.next? = some s' ∧
      AtValue s' more (.value :: .scalar key true :: .key ::
        ((if opened then [] else [.blockMappingStart]) ++ lexemes)) := by
  obtain ⟨place, keys, count, column, fresh⟩ := here.keys
  have shallow : s.margin ≤ 1 := by
    rw [here.margin]
    exact Bool.toNat_le opened
  have block : s.inFlow = false := inFlow_of_single keys
  have still : s.toToken = s := by
    apply toToken_of_stop
    rw [here.rest, skipBlanks.eq_3 _ _ _ _ _ (by simp), if_neg (by decide), if_neg (by simp),
      if_neg (by decide)]
  have cut : s.next? = s.takeColon? (' ' :: more) := by
    rw [next?_of_fresh (by simpa [keys, still] using fresh) (Nat.le_add_left_of_le shallow)
      (still.symm ▸ here.rest), still]
    simp [takeToken?, startsDocument, block, endsToken, isBlank]
  have tokens (inserted : List Lexeme) :=
    congrArg (Lexeme.value :: ·) (map_insert here.tokens place.position.line inserted)
  rw [cut]
  simp only [takeColon?, keys, column, count]
  cases opened with
  | false =>
    have opens : opensBlock { s with keys := [none], keyAllowed := false } 0 = true := by
      simp [opensBlock, inFlow, here.margin]
    rw [if_pos opens]
    refine ⟨_, rfl, ?_, rfl, ?_, rfl, rfl, rfl⟩
    · exact tokens [.blockMappingStart, .key]
    · simp [take, push, goTo, enterBlock, insert, here.margin, here.margins]
  | true =>
    have inside : ¬opensBlock { s with keys := [none], keyAllowed := false } 0 = true := by
      simp [opensBlock, inFlow, here.margin]
    rw [if_neg inside]
    refine ⟨_, rfl, ?_, ?_, ?_, rfl, rfl, rfl⟩
    · exact tokens [.key]
    · exact here.margin
    · exact here.margins

/-- Behind the blank a value begins, to the right of the margin. -/
theorem AtValue.begins (here : AtValue s (c :: more) lexemes) (printable : Printable c) (solid : c ≠ ' ')
    (comment : c ≠ '#') :
    s.toToken.rest = c :: more ∧ s.toToken.keyAllowed = false ∧ s.toToken.column ≠ 0 ∧
      s.next? = s.toToken.takeToken? c more := by
  have block : s.inFlow = false := inFlow_of_single here.keys
  have skip : skipBlanks s.inFlow s.keyAllowed false s.rest = (c :: more, false) := by
    rw [block, here.keyAllowed, here.rest, skipBlanks.eq_3 _ _ _ _ _ (by simp), if_neg (by decide),
      if_pos (by simp), skipBlanks.eq_3 _ _ _ _ _ (fun _ same => absurd same printable.ne_return),
      if_neg (by simp [printable.isBreak]), if_neg (by simp [solid, printable.ne (d := '\t') (by decide)]),
      if_neg (by simpa using comment)]
  have moved : s.toToken = { s.goTo (c :: more) with keyAllowed := false } := by rw [toToken, skip]
  have column : s.toToken.column = s.column + 1 := by
    have after := congrArg Position.column (position_goTo (show s.rest = [' '] ++ c :: more from here.rest))
    rw [moved]
    exact after
  have rest : s.toToken.rest = c :: more := by rw [moved]; rfl
  refine ⟨rest, by rw [moved], by omega, next?_of_fresh (by simp [here.keys]) ?_ rest⟩
  rw [here.margin]
  exact Nat.le_add_left 1 _

/-- A scalar that has passed the line break leaves a key to begin. -/
theorem AtLine.of_broken (tokens : s.tokens.map Token.lexeme = lexemes) (margin : s.margin = 1)
    (margins : s.margins = [0]) (keys : s.keys = [none]) (allowed : s.keyAllowed = true)
    (starts : StartsLine s.rest) (column : s.column = 0) : AtLine s true s.rest lexemes := by
  have still : s.toToken = s := by
    apply toToken_of_stop
    rw [inFlow_of_single keys, allowed]
    exact starts.skipBlanks
  exact ⟨tokens, margin, margins, keys, still.symm ▸ allowed, by rw [still], still.symm ▸ column⟩

theorem AtLine.of_newline (tokens : s.tokens.map Token.lexeme = lexemes) (margin : s.margin = 1)
    (margins : s.margins = [0]) (keys : s.keys = [none]) (here : s.rest = '\n' :: more)
    (starts : StartsLine more) : AtLine s true more lexemes := by
  have skip : skipBlanks s.inFlow s.keyAllowed false s.rest = (more, true) := by
    rw [inFlow_of_single keys, here, skipBlanks.eq_3 _ _ _ _ _ (by simp), if_pos (by rfl), Bool.not_false,
      Bool.or_true]
    exact starts.skipBlanks
  have moved : s.toToken = { s.goTo more with keyAllowed := true } := by rw [toToken, skip]
  refine ⟨tokens, margin, margins, keys, by rw [moved], by rw [moved]; rfl, ?_⟩
  have column := congrArg Position.column (position_goTo (show s.rest = ['\n'] ++ more from here))
  rw [moved]
  exact column

theorem markKey?_of_not_allowed (allowed : s.keyAllowed = false) : s.markKey? = some s := by
  simp [markKey?, allowed]

theorem AtValue.next?_plain (here : AtValue s (written ++ '\n' :: more) lexemes)
    (folded : Folded ([·]) false {} text written) (printable : ∀ c ∈ text, Printable c)
    (begins : beginsPlain text = true) (stays : staysPlain false text = true) (last : text.getLast? ≠ some ' ')
    (starts : StartsLine more) :
    ∃ s', s.next? = some s' ∧ AtLine s' true more (.scalar text true :: lexemes) := by
  obtain ⟨c, member, tail, same, goes⟩ := folded.begins begins ('\n' :: more)
  obtain ⟨solid, comment⟩ := solid_of_beginsPlain goes
  obtain ⟨rest, allowed, column, cut⟩ := (same ▸ here).begins (printable c member) solid comment
  have block : s.toToken.inFlow = false := inFlow_of_single here.keys
  have read : readPlain? s.toToken.inFlow s.toToken.margin {} s.toToken.rest =
      some { text, rest := more, broken := true } := by
    rw [block, show s.toToken.margin = 1 from here.margin, rest, ← same]
    exact readPlain?_line folded printable stays last (by decide) (starts.readPlain? Nat.one_pos)
  have taken : s.next? = some { s.toToken.take (.scalar text true) more with keyAllowed := true } := by
    rw [cut, takeToken?_plain block goes fun zero => absurd zero column]
    simp [takePlain?, markKey?_of_not_allowed allowed, read]
  refine ⟨_, taken, AtLine.of_broken ?_ here.margin here.margins here.keys rfl starts ?_⟩
  · exact congrArg (Lexeme.scalar text true :: ·) here.tokens
  · have ordinary : ∀ d ∈ written, d ≠ '\r' := by
      intro d inside
      have line := ScalarLine.plain folded begins stays last
      rcases line.printable printable d (List.mem_append_left _ inside) with printed | rfl
      · exact printed.ne_return
      · decide
    have moved := position_goTo (show s.toToken.rest = (written ++ ['\n']) ++ more by simp [rest, ← same])
    exact (congrArg Position.column moved).trans (Position.column_after_newline _ ordinary)

/-- A scalar in quotes, which is the same for both kinds of them. -/
theorem AtValue.next?_quoted (here : AtValue s (c :: more) lexemes) (printable : Printable c) (solid : c ≠ ' ')
    (comment : c ≠ '#') (starts : StartsLine after)
    (read : s.toToken.column ≠ 0 →
      s.toToken.takeToken? c more = s.toToken.takeNode? (some (.scalar text false, '\n' :: after))) :
    ∃ s', s.next? = some s' ∧ AtLine s' true after (.scalar text false :: lexemes) := by
  obtain ⟨rest, allowed, column, cut⟩ := here.begins printable solid comment
  have taken : s.next? =
      some { s.toToken.take (.scalar text false) ('\n' :: after) with keyAllowed := false } := by
    rw [cut, read column]
    simp [takeNode?, markKey?_of_not_allowed allowed]
  refine ⟨_, taken, AtLine.of_newline ?_ here.margin here.margins here.keys rfl starts⟩
  exact congrArg (Lexeme.scalar text false :: ·) here.tokens

theorem takeToken?_single (inside : s.column ≠ 0) : s.takeToken? '\'' more =
    s.takeNode? ((readSingle? {} more).map fun (text, left) => (.scalar text false, left)) := by
  simp [takeToken?, inside]

theorem takeToken?_double (inside : s.column ≠ 0) : s.takeToken? '"' more =
    s.takeNode? ((readDouble? {} more).map fun (text, left) => (.scalar text false, left)) := by
  simp [takeToken?, inside]

theorem AtValue.next?_value (here : AtValue s (written ++ more) lexemes) (form : ScalarLine written text plain)
    (printable : ∀ c ∈ text, Printable c) (starts : StartsLine more) :
    ∃ s', s.next? = some s' ∧ AtLine s' true more (.scalar text plain :: lexemes) := by
  cases form with
  | @plain text written folded begins stays last =>
    rw [List.append_assoc] at here
    exact here.next?_plain folded printable begins stays last starts
  | @single text written folded =>
    have read := unfolds_readSingle?.read_folded folded printable .none fun level =>
      readSingle?_close level (show ('\n' :: more).head? ≠ some '\'' by simp)
    simp only [List.append_assoc, List.cons_append, List.nil_append] at here
    refine here.next?_quoted (by decide) (by decide) (by decide) starts fun column => ?_
    rw [takeToken?_single column, read]
    rfl
  | @double text written folded =>
    have read := unfolds_readDouble?.read_folded folded printable .none fun level =>
      readDouble?_close level ('\n' :: more)
    simp only [List.append_assoc, List.cons_append, List.nil_append] at here
    refine here.next?_quoted (by decide) (by decide) (by decide) starts fun column => ?_
    rw [takeToken?_double column, read]
    rfl

end Scan

/-! Mappings. -/

/-- An entry of a mapping with its value as it is written. -/
structure ScalarEntry where
  key : List Char
  text : List Char
  plain : Bool
  written : List Char
  word : Word key
  printable : ∀ c ∈ text, Printable c
  form : ScalarLine written text plain

namespace ScalarEntry

def line (e : ScalarEntry) : List Char := e.key ++ ':' :: ' ' :: e.written

def lexemes (e : ScalarEntry) : List Lexeme := [.key, .scalar e.key true, .value, .scalar e.text e.plain]

theorem startsLine (entries : List ScalarEntry) : StartsLine (entries.flatMap line) := by
  cases entries with
  | nil => simp [StartsLine]
  | cons e entries =>
    rw [List.flatMap_cons, line, List.append_assoc]
    exact e.word.startsLine _

theorem length_line (e : ScalarEntry) : 3 ≤ e.line.length := by
  have key := List.length_pos_iff.mpr e.word.nonempty
  simp only [line, List.length_append, List.length_cons]
  omega

theorem length_lines (entries : List ScalarEntry) : 3 * entries.length ≤ (entries.flatMap line).length := by
  induction entries with
  | nil => simp
  | cons e entries ih =>
    have first := e.length_line
    simp only [List.flatMap_cons, List.length_append, List.length_cons]
    omega

theorem length_lexemes (entries : List ScalarEntry) :
    (entries.flatMap lexemes).length = 4 * entries.length := by
  induction entries with
  | nil => rfl
  | cons e entries ih =>
    simp only [List.flatMap_cons, List.length_append, ih, lexemes, List.length_cons, List.length_nil]
    omega

end ScalarEntry

namespace Scan

variable {s : Scan} {more : List Char} {lexemes : List Lexeme} {opened : Bool}

/-- At the beginning of a text nothing has been cut. -/
theorem atLine_start (starts : StartsLine more) : AtLine { cursor := { rest := more } } false more [] := by
  have still : toToken { cursor := { rest := more } } = { cursor := { rest := more } } :=
    toToken_of_stop starts.skipBlanks
  exact ⟨rfl, rfl, rfl, rfl, by rw [still], by rw [still]; rfl, by rw [still]; rfl⟩

theorem run_of_next {s' : Scan} {newest : Lexeme} (next : s.next? = some s')
    (tokens : s'.tokens.map Token.lexeme = newest :: lexemes) (goesOn : newest ≠ .streamEnd) (fuel : Nat) :
    run (fuel + 1) s = run fuel s' := by
  obtain ⟨⟨lexeme, line⟩, older, same, rfl, -⟩ := List.map_eq_cons_iff.mp tokens
  simp only [run, next, same]
  split
  · rename_i ended
    exact absurd (congrArg Token.lexeme (List.cons.inj ended).1) goesOn
  · rfl

/-- Three steps cut an entry, and the first one of all opens the mapping. -/
theorem AtLine.run_entry {e : ScalarEntry} (here : AtLine s opened (e.line ++ more) lexemes)
    (starts : StartsLine more) :
    ∃ s', (∀ fuel, run (fuel + 3) s = run fuel s') ∧
      AtLine s' true more
        (e.lexemes.reverse ++ ((if opened then [] else [.blockMappingStart]) ++ lexemes)) := by
  rw [ScalarEntry.line, List.append_assoc] at here
  obtain ⟨s₁, first, atColon⟩ := here.next?_key e.word
  obtain ⟨s₂, second, atValue⟩ := atColon.next?_colon
  obtain ⟨s₃, third, atLine⟩ := atValue.next?_value e.form e.printable starts
  refine ⟨s₃, fun fuel => ?_, atLine⟩
  calc run (fuel + 3) s
    _ = run (fuel + 2) s₁ := run_of_next first atColon.tokens (by simp) _
    _ = run (fuel + 1) s₂ := run_of_next second atValue.tokens (by simp) _
    _ = run fuel s₃ := run_of_next third atLine.tokens (by simp) _

/-- The end of the text ends the mapping. -/
theorem AtLine.next?_end (here : AtLine s true [] lexemes) :
    ∃ s', s.next? = some s' ∧ s'.tokens.map Token.lexeme = .streamEnd :: .blockEnd :: lexemes := by
  have keys : s.toToken.keys = [none] := here.keys
  have block : s.toToken.inFlow = false := inFlow_of_single keys
  have margin : s.toToken.margin = 1 := here.margin
  have margins : s.toToken.margins = [0] := here.margins
  have kept : s.toToken.dropStale? = some s.toToken := dropStale?_of_fresh (by simp [keys])
  have level : s.toToken.endBlocksTo (s.toToken.column + 1) = s.toToken := endBlocksTo_of_le (by simp [margin])
  have ended : (s.toToken.endBlocksTo 0).keys = [none] ∧
      (s.toToken.endBlocksTo 0).tokens.map Token.lexeme = .blockEnd :: lexemes := by
    simp only [endBlocksTo, block, margin, margins, endBlocks, Bool.false_eq_true, if_false, Nat.zero_lt_one,
      if_true]
    exact ⟨keys, congrArg (Lexeme.blockEnd :: ·) here.tokens⟩
  simp only [next?, kept, Option.bind_eq_bind, Option.bind_some, level, here.rest, takeEnd?, dropKey?, ended.1]
  exact ⟨_, rfl, congrArg (Lexeme.streamEnd :: ·) ended.2⟩

theorem AtLine.run_end (here : AtLine s true [] lexemes) (fuel : Nat) :
    (run (fuel + 1) s).map Token.lexeme = .streamEnd :: .blockEnd :: lexemes := by
  obtain ⟨s', next, tokens⟩ := here.next?_end
  obtain ⟨⟨lexeme, line⟩, older, same, rfl, -⟩ := List.map_eq_cons_iff.mp tokens
  rw [run, next]
  simp only [same]
  rw [← same, tokens]

theorem AtLine.run_entries {entries : List ScalarEntry}
    (here : AtLine s true (entries.flatMap ScalarEntry.line) lexemes) (enough : 3 * entries.length < fuel) :
    (run fuel s).map Token.lexeme =
      .streamEnd :: .blockEnd :: ((entries.flatMap ScalarEntry.lexemes).reverse ++ lexemes) := by
  induction entries generalizing s lexemes fuel with
  | nil =>
    obtain ⟨fuel, rfl⟩ := Nat.exists_eq_succ_of_ne_zero (Nat.ne_zero_of_lt enough)
    exact here.run_end fuel
  | cons e entries ih =>
    rw [List.length_cons] at enough
    obtain ⟨fuel, rfl⟩ := Nat.exists_eq_add_of_le' (show 3 ≤ fuel by omega)
    obtain ⟨s', run, next⟩ := here.run_entry (ScalarEntry.startsLine entries)
    rw [run, ih next (by omega)]
    simp

end Scan

/-- The tokens of a mapping of scalars. -/
theorem map_tokens_entries {entries : List ScalarEntry} (nonempty : entries ≠ []) :
    (tokens (entries.flatMap ScalarEntry.line)).map Token.lexeme =
      .blockMappingStart :: (entries.flatMap ScalarEntry.lexemes ++ [.blockEnd, .streamEnd]) := by
  have enough := ScalarEntry.length_lines entries
  have here := Scan.atLine_start (ScalarEntry.startsLine entries)
  obtain ⟨e, entries, rfl⟩ := List.exists_cons_of_ne_nil nonempty
  rw [List.length_cons] at enough
  obtain ⟨fuel, length⟩ :=
    Nat.exists_eq_add_of_le' (show 3 ≤ ((e :: entries).flatMap ScalarEntry.line).length by omega)
  obtain ⟨s, run, next⟩ := here.run_entry (ScalarEntry.startsLine entries)
  rw [tokens, length, show fuel + 3 + 1 = fuel + 1 + 3 by omega, List.map_reverse, run,
    next.run_entries (by omega)]
  simp

end LoxLang.Yaml

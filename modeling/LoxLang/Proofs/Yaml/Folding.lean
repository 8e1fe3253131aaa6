import LoxLang.Yaml.Written

/-! Scalars that are folded over several lines are read back as they were. `Folded` says what folding may
do to a text, step by step and along with the gap that a reader is in, and each of the readers undoes it:
the plain one up to the end of the last word, the quoted ones up to the closing quote. -/
namespace LoxLang.Yaml

/-- The characters of a printed line, from the blank to the tilde. -/
def Printable (c : Char) : Prop := ' ' ≤ c ∧ c ≤ '~'

instance : DecidablePred Printable := fun c => inferInstanceAs (Decidable (' ' ≤ c ∧ c ≤ '~'))

namespace Printable

theorem ne (printable : Printable c) (other : ¬Printable d) : c ≠ d := by
  rintro rfl
  exact other printable

theorem ne_return (printable : Printable c) : c ≠ '\r' := printable.ne (by decide)

theorem isBreak (printable : Printable c) : isBreak c = false := by
  rw [Bool.eq_false_iff]
  intro breaks
  simp only [Yaml.isBreak, Bool.or_eq_true, beq_iff_eq, or_assoc] at breaks
  rcases breaks with rfl | rfl | rfl | rfl | rfl <;> exact absurd printable (by decide)

theorem isBlank (printable : Printable c) : isBlank c = (c == ' ') := by
  simp [Yaml.isBlank, printable.ne (d := '\t') (by decide)]

theorem not_isBlank (printable : Printable c) (solid : c ≠ ' ') : Yaml.isBlank c = false := by
  simp [printable.isBlank, solid]

theorem isPlainChar (printable : Printable c) : isPlainChar c = true := by
  have low : ' '.toNat ≤ c.toNat := printable.1
  have high : c.toNat ≤ '~'.toNat := printable.2
  simp only [Yaml.isPlainChar, Bool.or_eq_true, Bool.and_eq_true, decide_eq_true_eq]
  exact .inl (.inr ⟨low, high⟩)

theorem isReadable (printable : Printable c) : isReadable c = true := by
  have low : ' '.toNat ≤ c.toNat := printable.1
  have high : c.toNat ≤ '~'.toNat := printable.2
  simp only [Yaml.isReadable, Bool.or_eq_true, Bool.and_eq_true, decide_eq_true_eq]
  exact .inl (.inl (.inl (.inr ⟨low, high⟩)))

theorem isDirect (printable : Printable c) (quote : c ≠ '"') (slash : c ≠ '\\') :
    isDirect c = true := by
  simp [Yaml.isDirect, printable.isPlainChar, printable.isBreak, quote, slash]

end Printable

/-- How a quote is written between single quotes, and any other character. -/
abbrev doubledQuote (c : Char) : List Char := if c == '\'' then ['\'', '\''] else [c]

abbrev directOrEscaped (c : Char) : List Char := if isDirect c then [c] else escaped c

/-- Characters of a class that no indicator belongs to are none. -/
theorem not_isIndicator (among : Char → Bool) (inside : among c = true)
    (apart : ['#', ',', '[', ']', '\x7b', '\x7d', '&', '*', '!', '|', '>', '\'', '"', '%', '@', '\x60'].all
      fun d => !among d) : isIndicator c = false := by
  rw [Bool.eq_false_iff]
  intro indicates
  simpa [inside] using List.all_eq_true.mp apart c (List.contains_iff_mem.mp indicates)

/-! What folding does. -/

/-- The gap after a fold: a break and the blanks that set the next line in. -/
def Gap.fold : Gap := { broken := true, first := some '\n', column := inset.length }

/-- In the gap, `text` may be written as the last argument. A fold stands for a single blank between two
words. Where `guards`, it may also stand before a blank, which is then escaped. -/
inductive Folded (write : Char → List Char) (guards : Bool) : Gap → List Char → List Char → Prop
  | done : Folded write guards gap [] []
  | solid : c ≠ ' ' → Folded write guards {} text written →
      Folded write guards gap (c :: text) (write c ++ written)
  | blank : gap.broken = false → Folded write guards (gap.blank ' ') text written →
      Folded write guards gap (' ' :: text) (' ' :: written)
  | fold : c ≠ ' ' → Folded write guards .fold (c :: text) written →
      Folded write guards {} (' ' :: c :: text) ('\n' :: ' ' :: ' ' :: written)
  | guarded : guards = true → Folded write guards {} text written →
      Folded write guards {} (' ' :: ' ' :: text) ('\n' :: ' ' :: ' ' :: '\\' :: ' ' :: written)

/-- The gap before a text is the one that its last character leaves: none after a word, and a fold only
before a word. -/
structure Gap.Fits (gap : Gap) (before : Option Char) (text : List Char) : Prop where
  afterWord : before.any (· != ' ') → gap = {}
  beforeWord : gap.broken → text.head?.any (· != ' ')

theorem Gap.Fits.start (text : List Char) : Gap.Fits {} none text := ⟨by simp, by simp⟩

theorem folded_spec (write : Char → List Char) (column : Nat) (printable : ∀ c ∈ text, Printable c)
    (start : ∀ c ∈ before, Printable c) (fits : Gap.Fits gap before text) :
    Folded write false gap text (folded write column before text) := by
  induction text generalizing gap column before with
  | nil => exact .done
  | cons c rest ih =>
    obtain ⟨first, later⟩ := List.forall_mem_cons.mp printable
    have next : ∀ d ∈ some c, Printable d := by simpa using first
    by_cases blank : c = ' '
    · subst blank
      have whole : gap.broken = false :=
        Bool.eq_false_iff.mpr fun broken => by simpa using fits.beforeWord broken
      rw [folded, if_pos (by rfl)]
      split
      · rename_i folds
        simp only [Bool.and_eq_true] at folds
        obtain ⟨⟨-, word⟩, follows⟩ := folds
        obtain rfl := fits.afterWord word
        cases rest with
        | nil => simp at follows
        | cons d rest =>
          have solid : d ≠ ' ' := by simpa using follows
          exact .fold solid (ih _ later next ⟨by simp, fun _ => by simpa using solid⟩)
      · exact .blank whole (ih _ later next ⟨by simp, by simp [Gap.blank, whole]⟩)
    · have unbroken : before.any isBreak = false := by
        cases before with
        | none => rfl
        | some b => exact (start b rfl).isBreak
      rw [folded, if_neg (by simpa using blank), if_neg (by simp [first.isBreak]), if_neg (by simp [unbroken])]
      exact .solid blank (ih _ later next ⟨fun _ => rfl, by simp⟩)

/-- Right behind the guard no line is long enough to be broken again. -/
theorem foldedEscaped_guarded (rest : List Char) :
    foldedEscaped 3 (some ' ') (' ' :: rest) = ' ' :: foldedEscaped 4 (some ' ') rest := by
  rw [foldedEscaped, if_pos (by rfl), if_neg (by simp)]

-- A guard takes two blanks at once, so the recursion is on the length and not on the list.
theorem foldedEscaped_spec (column : Nat) (fits : Gap.Fits gap before text) :
    Folded directOrEscaped true gap text (foldedEscaped column before text) := by
  match text with
  | [] => exact .done
  | c :: rest =>
    by_cases blank : c = ' '
    · subst blank
      have whole : gap.broken = false :=
        Bool.eq_false_iff.mpr fun broken => by simpa using fits.beforeWord broken
      rw [foldedEscaped, if_pos (by rfl)]
      split
      · rename_i folds
        simp only [Bool.and_eq_true] at folds
        obtain ⟨⟨-, word⟩, follows⟩ := folds
        obtain rfl := fits.afterWord word
        cases rest with
        | nil => simp at follows
        | cons d rest =>
          by_cases again : d = ' '
          · subst again
            have step : foldedEscaped _ _ _ = _ := foldedEscaped_guarded rest
            simp only [List.head?_cons, BEq.rfl, if_true, inset, List.length_cons, List.length_nil, step]
            exact .guarded rfl (foldedEscaped_spec 4 ⟨by simp, by simp⟩)
          · simp only [List.head?_cons, Option.some_beq_some, beq_iff_eq, again, if_false]
            exact .fold again (foldedEscaped_spec 2 ⟨by simp, fun _ => by simpa using again⟩)
      · exact .blank whole (foldedEscaped_spec _ ⟨by simp, by simp [Gap.blank, whole]⟩)
    · rw [foldedEscaped, if_neg (by simpa using blank)]
      exact .solid blank (foldedEscaped_spec _ ⟨fun _ => rfl, by simp⟩)
termination_by text.length

/-! Reading. -/

/-- What is read next stands further in than the lines of a mapping's keys. -/
def Gap.SetIn (gap : Gap) : Prop := gap.broken = true → gap.column = inset.length

theorem Gap.SetIn.none : Gap.SetIn {} := fun broken => absurd broken (by decide)

theorem Gap.SetIn.fold : Gap.SetIn .fold := fun _ => rfl

theorem Gap.SetIn.atLineStart {gap : Gap} (level : gap.SetIn) : gap.atLineStart = false := by
  unfold Gap.atLineStart
  cases broken : gap.broken with
  | false => rfl
  | true => simp [level broken, inset]

theorem Gap.text_blank {gap : Gap} (whole : gap.broken = false) :
    (gap.blank ' ').text = gap.text ++ [' '] := by
  simp [Gap.blank, Gap.text, whole]

theorem Gap.setIn_blank {gap : Gap} (whole : gap.broken = false) : (gap.blank ' ').SetIn := by
  simp [Gap.SetIn, Gap.blank, whole]

/-- A character that ends no token does not end one after folding either. -/
theorem Folded.endsToken (folded : Folded ([·]) guards gap text written)
    (goes : endsToken text = false) (tail : List Char) : endsToken (written ++ tail) = false := by
  cases folded with
  | done => simp [Yaml.endsToken] at goes
  | solid => simpa [Yaml.endsToken] using goes
  | blank | fold | guarded => simp [Yaml.endsToken, isBlank] at goes

/-- A plain scalar begins as its text does. -/
theorem Folded.begins (folded : Folded ([·]) guards {} text written) (begins : beginsPlain text = true)
    (tail : List Char) :
    ∃ c ∈ text, ∃ rest, written ++ tail = c :: rest ∧ beginsPlain (c :: rest) = true := by
  cases folded with
  | done => simp [beginsPlain] at begins
  | blank | fold | guarded => simp [beginsPlain, isIndicator, isBlank] at begins
  | @solid c text written _ solid folded =>
    refine ⟨c, List.mem_cons_self, written ++ tail, rfl, ?_⟩
    rw [beginsPlain] at begins ⊢
    split
    · rename_i special
      rw [if_pos special, Bool.not_eq_true'] at begins
      rw [folded.endsToken begins]
      rfl
    · rename_i special
      rwa [if_neg special] at begins

theorem solid_of_beginsPlain (begins : beginsPlain (c :: rest) = true) : c ≠ ' ' ∧ c ≠ '#' := by
  constructor <;> rintro rfl <;> simp [beginsPlain, isIndicator, isBlank] at begins

theorem last_of_cons {c d : Char} {text : List Char} (last : (c :: text).getLast? ≠ some d) :
    text.getLast? ≠ some d := by
  cases text with
  | nil => simp
  | cons => simpa using last

/-- A word goes on after a gap that leads far enough in, unless it looks like a comment. -/
theorem Gap.SetIn.endsPlain {gap : Gap} (level : gap.SetIn) (shallow : margin ≤ inset.length)
    (comment : gap.isEmpty = false → c ≠ '#') : gap.endsPlain false margin (c :: rest) = false := by
  have deep : (gap.broken && decide (gap.column < margin)) = false := by
    cases broken : gap.broken with
    | false => rfl
    | true => simpa [level broken] using shallow
  simpa [Gap.endsPlain, deep, level.atLineStart] using comment

theorem readPlain?_fold (margin : Nat) (rest : List Char) :
    readPlain? false margin {} ('\n' :: ' ' :: ' ' :: rest) = readPlain? false margin .fold rest := by
  simp [readPlain?, isBlank, isBreak, Gap.lineBreak, Gap.blank, Gap.fold, plainBreak, inset]

theorem readPlain?_folded (folded : Folded ([·]) false gap text written)
    (printable : ∀ c ∈ text, Printable c) (stays : staysPlain afterBlank text = true)
    (apart : gap.isEmpty = true ∨ afterBlank = true) (last : text.getLast? ≠ some ' ')
    (ended : gap = {} ∨ text ≠ []) (level : gap.SetIn) (shallow : margin ≤ inset.length)
    (stops : readPlain? false margin {} tail = some { text := [], rest, broken }) :
    readPlain? false margin gap (written ++ tail) = some { text := gap.text ++ text, rest, broken } := by
  induction folded generalizing afterBlank with
  | done =>
    obtain rfl := ended.resolve_right fun nonempty => nonempty rfl
    exact stops
  | @solid c text written gap solid folded ih =>
    obtain ⟨first, later⟩ := List.forall_mem_cons.mp printable
    simp only [staysPlain, Bool.and_eq_true, Bool.not_eq_true', Bool.and_eq_false_imp] at stays
    obtain ⟨⟨colon, hash⟩, stays⟩ := stays
    have goesOn : gap.endsPlain false margin (c :: (written ++ tail)) = false := by
      refine level.endsPlain shallow fun gapped comment => ?_
      have after := apart.resolve_left (by simp [gapped])
      simp [comment, after] at hash
    have inside : endsPlain false (c :: (written ++ tail)) = false := by
      simp only [endsPlain, Bool.false_and, Bool.or_false, Bool.and_eq_false_imp]
      exact fun isColon => folded.endsToken (colon isColon) tail
    rw [List.append_assoc, List.singleton_append,
      readPlain?.eq_3 _ _ _ _ _ (fun _ e => absurd e first.ne_return),
      if_neg (by simp [first.not_isBlank solid]), if_neg (by simp [first.isBreak]),
      if_neg (by simp [goesOn, inside]),
      ih later stays (.inl rfl) (last_of_cons last) (.inl rfl) .none]
    rfl
  | @blank text written gap whole folded ih =>
    rw [staysPlain, Bool.and_eq_true] at stays
    have more : text ≠ [] := by
      rintro rfl
      simp at last
    rw [List.cons_append, readPlain?.eq_3 _ _ _ _ _ (by simp), if_pos (by rfl), if_neg (by simp),
      ih (List.forall_mem_cons.mp printable).2 stays.2 (.inr rfl) (last_of_cons last) (.inr more)
        (Gap.setIn_blank whole),
      Gap.text_blank whole, List.append_assoc, List.singleton_append]
  | @fold c text written solid folded ih =>
    rw [staysPlain, Bool.and_eq_true] at stays
    rw [List.cons_append, List.cons_append, List.cons_append, readPlain?_fold,
      ih (List.forall_mem_cons.mp printable).2 stays.2 (.inr rfl) (last_of_cons last)
        (.inr (List.cons_ne_nil c text)) .fold]
    rfl
  | guarded guards => contradiction

/-- A plain scalar is read from its beginning up to where it stops. -/
theorem readPlain?_line (folded : Folded ([·]) false {} text written) (printable : ∀ c ∈ text, Printable c)
    (stays : staysPlain false text = true) (last : text.getLast? ≠ some ' ') (shallow : margin ≤ inset.length)
    (stops : readPlain? false margin {} tail = some { text := [], rest, broken }) :
    readPlain? false margin {} (written ++ tail) = some { text, rest, broken } :=
  readPlain?_folded folded printable stays (.inl rfl) last (.inl rfl) .none shallow stops

/-- A reader undoes the steps of folding, where `write` gives the characters of words. -/
structure Unfolds (read : Gap → List Char → Option (List Char × List Char)) (write : Char → List Char)
    (guards : Bool) : Prop where
  blank : ∀ gap rest, read gap (' ' :: rest) = read (gap.blank ' ') rest
  fold : ∀ rest, read {} ('\n' :: ' ' :: ' ' :: rest) = read .fold rest
  solid : ∀ {gap : Gap} {c : Char}, Printable c → c ≠ ' ' → gap.SetIn → ∀ rest, read gap (write c ++ rest) =
    (read {} rest).map fun (text, left) => (gap.text ++ c :: text, left)
  guarded : guards = true → ∀ rest, read .fold ('\\' :: ' ' :: rest) =
    (read {} rest).map fun (text, left) => (' ' :: ' ' :: text, left)

/-- The text is read up to a quote that gives it what the gap before stands for. -/
theorem Unfolds.read_folded {read : Gap → List Char → Option (List Char × List Char)}
    (unfolds : Unfolds read write guards) (folded : Folded write guards gap text written)
    (printable : ∀ c ∈ text, Printable c) (level : gap.SetIn)
    (closes : ∀ {gap : Gap}, gap.SetIn → read gap tail = some (gap.text, rest)) :
    read gap (written ++ tail) = some (gap.text ++ text, rest) := by
  induction folded with
  | done => rw [List.nil_append, closes level, List.append_nil]
  | @solid c text written gap solid folded ih =>
    obtain ⟨first, later⟩ := List.forall_mem_cons.mp printable
    rw [List.append_assoc, unfolds.solid first solid level, ih later .none]
    rfl
  | @blank text written gap whole folded ih =>
    rw [List.cons_append, unfolds.blank, ih (List.forall_mem_cons.mp printable).2 (Gap.setIn_blank whole),
      Gap.text_blank whole, List.append_assoc, List.singleton_append]
  | @fold c text written solid folded ih =>
    rw [List.cons_append, List.cons_append, List.cons_append, unfolds.fold,
      ih (List.forall_mem_cons.mp printable).2 .fold]
    rfl
  | @guarded text written guards folded ih =>
    obtain ⟨-, later⟩ := List.forall_mem_cons.mp (List.forall_mem_cons.mp printable).2
    rw [List.cons_append, List.cons_append, List.cons_append, List.cons_append, List.cons_append,
      unfolds.fold, unfolds.guarded guards, ih later .none]
    rfl

theorem readSingle?_blank (gap : Gap) (rest : List Char) :
    readSingle? gap (' ' :: rest) = readSingle? (gap.blank ' ') rest := by
  rw [readSingle?.eq_def]
  rfl

theorem readSingle?_fold (rest : List Char) :
    readSingle? {} ('\n' :: ' ' :: ' ' :: rest) = readSingle? .fold rest := by
  rw [readSingle?.eq_def]
  exact (readSingle?_blank _ _).trans (readSingle?_blank _ _)

theorem readSingle?_solid {gap : Gap} (printable : Printable c) (solid : c ≠ ' ') (level : gap.SetIn)
    (rest : List Char) :
    readSingle? gap (doubledQuote c ++ rest) =
      (readSingle? {} rest).map fun (text, left) => (gap.text ++ c :: text, left) := by
  have place := level.atLineStart
  unfold doubledQuote
  split
  · rename_i quote
    obtain rfl : c = '\'' := by simpa using quote
    simp [readSingle?, isBlank, isBreak, place]
  · rename_i quote
    rw [List.singleton_append, readSingle?.eq_def]
    split
    · contradiction
    · rename_i same
      exact absurd (List.cons.inj same).1 printable.ne_return
    · rename_i same
      obtain ⟨rfl, rfl⟩ := List.cons.inj same
      rw [if_neg (by simp [printable.not_isBlank solid]), if_neg (by simp [printable.isBreak]),
        if_neg (by simp [place]), if_neg quote]

theorem readSingle?_close {gap : Gap} (level : gap.SetIn) (closed : rest.head? ≠ some '\'') :
    readSingle? gap ('\'' :: rest) = some (gap.text, rest) := by
  have other : ∀ more, rest = '\'' :: more → False := by
    rintro more rfl
    simp at closed
  rw [readSingle?.eq_4 gap '\'' rest (by simp) other]
  simp [isBlank, isBreak, level.atLineStart]

theorem unfolds_readSingle? : Unfolds readSingle? doubledQuote false where
  blank := readSingle?_blank
  fold := readSingle?_fold
  solid := readSingle?_solid
  guarded guards := by contradiction

theorem readDouble?_blank (gap : Gap) (rest : List Char) :
    readDouble? gap (' ' :: rest) = readDouble? (gap.blank ' ') rest := by
  rw [readDouble?.eq_def]
  rfl

theorem readDouble?_fold (rest : List Char) :
    readDouble? {} ('\n' :: ' ' :: ' ' :: rest) = readDouble? .fold rest := by
  rw [readDouble?.eq_def]
  exact (readDouble?_blank _ _).trans (readDouble?_blank _ _)

/-- An escape of two characters is read as the one that it stands for. -/
theorem readDouble?_escape {gap : Gap} (level : gap.SetIn) (letter : Printable c)
    (width : escapeWidth c = 0) (stands : letterEscape? c = some d) (rest : List Char) :
    readDouble? gap ('\\' :: c :: rest) =
      (readDouble? {} rest).map fun (text, left) => (gap.text ++ d :: text, left) := by
  have escape : escape? c rest = some d := by simp [escape?, width, stands]
  rw [readDouble?.eq_def]
  split
  · contradiction
  · rename_i same
    exact absurd (List.cons.inj same).1 (by decide)
  · rename_i same
    obtain ⟨rfl, rfl⟩ := List.cons.inj same
    rw [if_neg (by decide), if_neg (by decide), if_neg (by simp [level.atLineStart]),
      if_neg (by decide), if_pos (by rfl)]
    split
    · contradiction
    · rename_i same
      exact absurd (List.cons.inj same).1 letter.ne_return
    · rename_i same
      obtain ⟨rfl, rfl⟩ := List.cons.inj same
      rw [if_neg (by simp [letter.isBreak])]
      simp only [escape, width, List.drop_zero]

theorem readDouble?_solid {gap : Gap} (printable : Printable c) (solid : c ≠ ' ') (level : gap.SetIn)
    (rest : List Char) :
    readDouble? gap (directOrEscaped c ++ rest) =
      (readDouble? {} rest).map fun (text, left) => (gap.text ++ c :: text, left) := by
  by_cases quote : c = '"'
  · subst quote
    exact readDouble?_escape level printable (by decide) (by rfl) rest
  by_cases slash : c = '\\'
  · subst slash
    exact readDouble?_escape level printable (by decide) (by rfl) rest
  rw [directOrEscaped, if_pos (printable.isDirect quote slash), List.singleton_append, readDouble?.eq_def]
  split
  · contradiction
  · rename_i same
    exact absurd (List.cons.inj same).1 printable.ne_return
  · rename_i same
    obtain ⟨rfl, rfl⟩ := List.cons.inj same
    rw [if_neg (by simp [printable.not_isBlank solid]), if_neg (by simp [printable.isBreak]),
      if_neg (by simp [level.atLineStart]), if_neg (by simpa using quote), if_neg (by simpa using slash)]

theorem readDouble?_close {gap : Gap} (level : gap.SetIn) (rest : List Char) :
    readDouble? gap ('"' :: rest) = some (gap.text, rest) := by
  rw [readDouble?.eq_def]
  simp [isBlank, isBreak, level.atLineStart]

theorem unfolds_readDouble? : Unfolds readDouble? directOrEscaped true where
  blank := readDouble?_blank
  fold := readDouble?_fold
  solid := readDouble?_solid
  guarded _ := readDouble?_escape .fold (by decide) (by decide) (by rfl)

/-! The lines of scalars. -/

/-- `line` holds `text` as a scalar, in one of the three forms; `plain` tells whether without quotes. -/
inductive ScalarLine : (line text : List Char) → (plain : Bool) → Prop
  | plain : Folded ([·]) false {} text written → beginsPlain text = true → staysPlain false text = true →
      text.getLast? ≠ some ' ' → ScalarLine (written ++ ['\n']) text true
  | single : Folded doubledQuote false {} text written →
      ScalarLine ('\'' :: written ++ ['\'', '\n']) text false
  | double : Folded directOrEscaped true {} text written →
      ScalarLine ('"' :: written ++ ['"', '\n']) text false

theorem scalarLine_doubleQuoted (column : Nat) (printable : ∀ c ∈ text, Printable c) :
    ScalarLine (doubleQuoted column text ++ ['\n']) text false := by
  have unmarked : text.head? ≠ some '\ufeff' := by
    intro marked
    exact absurd (printable _ (List.mem_of_mem_head? marked)) (by decide)
  rw [doubleQuoted, if_neg (by simpa using unmarked)]
  simpa using ScalarLine.double (foldedEscaped_spec (column + 1) (.start text))

/-- A text without breaks is written as a scalar, and plainly only if it looks like a string. -/
theorem scalarLine_writtenLine (column : Nat) (printable : ∀ c ∈ text, Printable c) :
    ∃ plain, ScalarLine (writtenLine column text) text plain ∧ (plain = true → looksTyped text = false) := by
  have unbroken : ¬text.contains '\n' = true := by
    rw [List.contains_iff_mem]
    intro broken
    exact absurd (printable _ broken) (by decide)
  have double := scalarLine_doubleQuoted column printable
  rw [writtenLine, if_neg unbroken]
  split
  · exact ⟨false, double, by simp⟩
  · rename_i untyped
    split
    · rename_i allowed
      simp only [plainAllowed, Bool.and_eq_true, bne_iff_ne] at allowed
      obtain ⟨⟨⟨⟨⟨begins, -⟩, stays⟩, last⟩, -⟩, -⟩ := allowed
      have folded := folded_spec ([·]) column printable (by simp) (.start text)
      exact ⟨true, .plain folded begins stays last, fun _ => by simpa using untyped⟩
    · split
      · have folded := folded_spec doubledQuote (column + 1) printable (by simp) (.start text)
        rw [singleQuoted, List.append_assoc]
        exact ⟨false, .single folded, by simp⟩
      · exact ⟨false, double, by simp⟩

theorem resolve_of_not_looksTyped (untyped : looksTyped text = false) : Plain.resolve true text = .str := by
  unfold looksTyped at untyped
  cases meaning : Plain.resolve true text <;> simp_all

/-- Folding leaves a text without blanks as it is. -/
theorem Folded.of_solid {gap : Gap} (solid : ∀ c ∈ text, c ≠ ' ') : Folded ([·]) guards gap text text := by
  induction text generalizing gap with
  | nil => exact .done
  | cons c text ih =>
    obtain ⟨first, later⟩ := List.forall_mem_cons.mp solid
    exact .solid first (ih later)

theorem staysPlain_of_ne (each : ∀ c ∈ text, c ≠ ':' ∧ c ≠ '#') (afterBlank : Bool) :
    staysPlain afterBlank text = true := by
  induction text generalizing afterBlank with
  | nil => rfl
  | cons c text ih =>
    obtain ⟨⟨colon, hash⟩, later⟩ := List.forall_mem_cons.mp each
    simp [staysPlain, colon, hash, ih later]

theorem scalarLine_word (solid : ∀ c ∈ text, c ≠ ' ') (begins : beginsPlain text = true)
    (stays : staysPlain false text = true) : ScalarLine (text ++ ['\n']) text true :=
  .plain (.of_solid solid) begins stays fun last => solid _ (List.mem_of_mem_getLast? last) rfl

/-- Folding adds nothing but line breaks and blanks. -/
theorem Folded.printable (folded : Folded write guards gap text written)
    (each : ∀ c ∈ text, ∀ d ∈ write c, Printable d) : ∀ d ∈ written, Printable d ∨ d = '\n' := by
  induction folded with
  | done => simp
  | @solid c text written gap solid folded ih =>
    obtain ⟨first, later⟩ := List.forall_mem_cons.mp each
    intro d member
    rcases List.mem_append.mp member with own | inside
    · exact .inl (first d own)
    · exact ih later d inside
  | @blank text written gap whole folded ih =>
    simpa [show Printable ' ' by decide] using ih (List.forall_mem_cons.mp each).2
  | @fold c text written solid folded ih =>
    simpa [show Printable ' ' by decide] using ih (List.forall_mem_cons.mp each).2
  | @guarded text written guards folded ih =>
    obtain ⟨-, later⟩ := List.forall_mem_cons.mp (List.forall_mem_cons.mp each).2
    simpa [show Printable ' ' by decide, show Printable '\\' by decide] using ih later

theorem Printable.doubledQuote (printable : Printable c) : ∀ d ∈ doubledQuote c, Printable d := by
  unfold Yaml.doubledQuote
  split
  · simp [show Printable '\'' by decide]
  · simpa using printable

theorem Printable.directOrEscaped (printable : Printable c) : ∀ d ∈ directOrEscaped c, Printable d := by
  by_cases quote : c = '"'
  · subst quote
    rw [show Yaml.directOrEscaped '"' = ['\\', '"'] by decide]
    simp [show Printable '\\' by decide, printable]
  by_cases slash : c = '\\'
  · subst slash
    rw [show Yaml.directOrEscaped '\\' = ['\\', '\\'] by decide]
    simp [printable]
  rw [Yaml.directOrEscaped, if_pos (printable.isDirect quote slash)]
  simpa using printable

theorem ScalarLine.printable (line : ScalarLine written text form) (printable : ∀ c ∈ text, Printable c) :
    ∀ d ∈ written, Printable d ∨ d = '\n' := by
  cases line with
  | plain folded =>
    have inside := folded.printable fun c member d same => by
      simpa [List.mem_singleton.mp same] using printable c member
    simpa [or_imp, forall_and] using inside
  | single folded =>
    have inside := folded.printable fun c member => (printable c member).doubledQuote
    simpa [or_imp, forall_and, show Printable '\'' by decide] using inside
  | double folded =>
    have inside := folded.printable fun c member => (printable c member).directOrEscaped
    simpa [or_imp, forall_and, show Printable '"' by decide] using inside

end LoxLang.Yaml

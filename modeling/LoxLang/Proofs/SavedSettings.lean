import Mathlib.Data.List.Forall2
import LoxLang.Command.App
import LoxLang.Console.Memory
import LoxLang.Proofs.FileTree
import LoxLang.Proofs.Text.Ascii
import LoxLang.Proofs.Yaml.FlatMapping
import LoxLang.Proofs.Yaml.Numerals

/-! Settings survive being saved. Each field is written as a scalar that stands for its value, so the
entries of a file set exactly the fields that they name, whichever of them are kept and in which order. -/
namespace LoxLang
namespace Settings

/-- Settings of which every field can be saved: numbers of 64 bits, and texts of one printed line. -/
structure Storable (s : Settings) : Prop where
  maxDepth : -2 ^ 63 ≤ s.maxDepth ∧ s.maxDepth < 2 ^ 63
  maxEvalDepth : -2 ^ 63 ≤ s.maxEvalDepth ∧ s.maxEvalDepth < 2 ^ 63
  history : ∀ c ∈ s.history.toList, Yaml.Printable c
  prompt : ∀ c ∈ s.prompt.toList, Yaml.Printable c

/-- The settings with the fields in `kept` replaced by those of `s`. -/
def overlay (base s : Settings) (kept : List Field) : Settings where
  maxDepth := if .maxDepth ∈ kept then s.maxDepth else base.maxDepth
  maxEvalDepth := if .maxEvalDepth ∈ kept then s.maxEvalDepth else base.maxEvalDepth
  color := if .color ∈ kept then s.color else base.color
  history := if .history ∈ kept then s.history else base.history
  prompt := if .prompt ∈ kept then s.prompt else base.prompt
  showTokens := if .showTokens ∈ kept then s.showTokens else base.showTokens

theorem overlay_all (base s : Settings) : base.overlay s Field.all = s := rfl

theorem replaced_cons (value old : α) (own field : Field) (kept : List Field) :
    (if own ∈ kept then value else if own ∈ [field] then value else old) =
      if own ∈ field :: kept then value else old := by
  by_cases same : own = field <;> by_cases member : own ∈ kept <;> simp [same, member]

/-- Fields are replaced one after the other. -/
theorem overlay_cons (base s : Settings) (field : Field) (kept : List Field) :
    (base.overlay s [field]).overlay s kept = base.overlay s (field :: kept) := by
  simp only [overlay, replaced_cons]

/-! Entries. -/

theorem Field.word (field : Field) : Yaml.Word field.key.toList := by
  cases field <;> exact ⟨by decide, List.all_iff_forall_prop.mp (by decide), by decide⟩

theorem word_toString (b : Bool) : Yaml.Word (toString b).toList := by
  cases b <;> exact ⟨by decide, List.all_iff_forall_prop.mp (by decide), by decide⟩

theorem Field.ofKey?_key (field : Field) : ofKey? field.key = some field := by
  cases field <;> decide

/-- What an entry stands for sets the field to that of `s`. -/
def Holds (s : Settings) (field : Field) (e : Yaml.ScalarEntry) : Prop :=
  ∀ base : Settings, base.setScalar? field (if e.plain then Yaml.Plain.resolve true e.text else .str) e.text =
    some (base.overlay s [field])

def Field.entry (field : Field) {written text : List Char} {plain : Bool}
    (printable : ∀ c ∈ text, Yaml.Printable c) (form : Yaml.ScalarLine written text plain) :
    Yaml.ScalarEntry where
  key := field.key.toList
  word := field.word
  written := written
  text := text
  plain := plain
  printable := printable
  form := form

theorem writtenEntry_eq (s : Settings) (field : Field) : s.writtenEntry field =
    field.key.toList ++ ':' :: ' ' :: s.writtenField (field.key.toList ++ [':', ' ']).length field := by
  rw [writtenEntry, List.append_assoc]
  rfl

theorem asInt?_toString {n : Int} (bounds : -2 ^ 63 ≤ n ∧ n < 2 ^ 63) :
    asInt? (Yaml.Plain.resolve true (toString n).toList) = some n := by
  rw [Yaml.resolve_toString bounds.1 bounds.2]
  exact if_pos bounds.2

theorem asBool?_toString (b : Bool) : asBool? (Yaml.Plain.resolve true (toString b).toList) = some b := by
  cases b <;> rfl

/-- Text is written plainly only if it is a string then. -/
theorem asString_written {text : String} {plain : Bool}
    (untyped : plain = true → Yaml.looksTyped text.toList = false) :
    asString (if plain then Yaml.Plain.resolve true text.toList else .str) text.toList = text := by
  have meaning : (if plain then Yaml.Plain.resolve true text.toList else .str) = .str := by
    split
    · rename_i bare
      exact Yaml.resolve_of_not_looksTyped (untyped bare)
    · rfl
  rw [meaning]
  exact String.ofList_toList

/-- Every field has an entry that holds it and is written as the field is. -/
theorem exists_entry {s : Settings} (storable : s.Storable) (field : Field) :
    ∃ e : Yaml.ScalarEntry, e.key = field.key.toList ∧ e.line = s.writtenEntry field ∧ s.Holds field e := by
  rw [writtenEntry_eq]
  cases field with
  | maxDepth =>
    refine ⟨Field.entry .maxDepth (Yaml.printable_toString _) (Yaml.scalarLine_toString s.maxDepth),
      rfl, rfl, fun base => ?_⟩
    exact congrArg (Option.map _) (asInt?_toString storable.maxDepth)
  | maxEvalDepth =>
    refine ⟨Field.entry .maxEvalDepth (Yaml.printable_toString _) (Yaml.scalarLine_toString s.maxEvalDepth),
      rfl, rfl, fun base => ?_⟩
    exact congrArg (Option.map _) (asInt?_toString storable.maxEvalDepth)
  | color =>
    refine ⟨Field.entry .color (word_toString _).printable (word_toString s.color).scalarLine,
      rfl, rfl, fun base => ?_⟩
    exact congrArg (Option.map _) (asBool?_toString s.color)
  | showTokens =>
    refine ⟨Field.entry .showTokens (word_toString _).printable (word_toString s.showTokens).scalarLine,
      rfl, rfl, fun base => ?_⟩
    exact congrArg (Option.map _) (asBool?_toString s.showTokens)
  | history =>
    obtain ⟨plain, form, untyped⟩ := Yaml.scalarLine_writtenLine _ storable.history
    refine ⟨Field.entry .history storable.history form, rfl, rfl, fun base => ?_⟩
    exact congrArg (fun text => some { base with history := text }) (asString_written untyped)
  | prompt =>
    obtain ⟨plain, form, untyped⟩ := Yaml.scalarLine_writtenLine _ storable.prompt
    refine ⟨Field.entry .prompt storable.prompt form, rfl, rfl, fun base => ?_⟩
    exact congrArg (fun text => some { base with prompt := text }) (asString_written untyped)

/-! Reading. -/

theorem keyName_scalar (document : Yaml.Document) {node : Yaml.Node} (field : Field)
    (key : node.IsScalar field.key.toList true) : keyName document node = some (.ok field.key) := by
  obtain ⟨line, rfl⟩ := key
  cases field <;> rfl

theorem not_isMerge {node : Yaml.Node} (field : Field) (key : node.IsScalar field.key.toList true) :
    isMerge node = false := by
  obtain ⟨line, rfl⟩ := key
  cases field <;> rfl

theorem setField?_holds (document : Yaml.Document) (l : Loading) {e : Yaml.ScalarEntry} {node : Yaml.Node}
    (holds : s.Holds field e) (value : node.IsScalar e.text e.plain) :
    setField? document l field node = some { l with settings := l.settings.overlay s [field] } := by
  obtain ⟨line, rfl⟩ := value
  have set := holds l.settings
  simp [setField?, scalarOf, followed, Yaml.Scalar.meaning?, set]

theorem setPair?_holds (document : Yaml.Document) (merge : Loading → Yaml.Node → Option Loading) (l : Loading)
    {e : Yaml.ScalarEntry} {nodes : Yaml.Node × Yaml.Node} (keyed : e.key = field.key.toList)
    (holds : s.Holds field e) (read : e.ReadAs nodes) (fresh : field ∉ seen) :
    setPair? document merge (l, seen) nodes =
      some ({ l with settings := l.settings.overlay s [field] }, field :: seen) := by
  obtain ⟨key, value⟩ := nodes
  have isKey : key.IsScalar field.key.toList true := keyed ▸ read.1
  simp [setPair?, not_isMerge field isKey, keyName_scalar document field isKey, Field.ofKey?_key, fresh,
    setField?_holds document l holds read.2]

/-- Entries of different fields are set one after the other, and nothing is wrong with them. -/
theorem foldlM_setPair? (document : Yaml.Document) (merge : Loading → Yaml.Node → Option Loading)
    {entry : Field → Yaml.ScalarEntry} (keyed : ∀ field, (entry field).key = field.key.toList)
    (holds : ∀ field, s.Holds field (entry field)) (l : Loading) (distinct : kept.Nodup)
    (fresh : ∀ field ∈ kept, field ∉ seen)
    (read : List.Forall₂ (fun field nodes => (entry field).ReadAs nodes) kept nodes) :
    ∃ seen', nodes.foldlM (setPair? document merge) (l, seen) =
      some ({ l with settings := l.settings.overlay s kept }, seen') := by
  induction read generalizing l seen with
  | nil => exact ⟨seen, rfl⟩
  | @cons field nodes kept later first _ ih =>
    obtain ⟨different, distinct⟩ := List.nodup_cons.mp distinct
    have apart : ∀ other ∈ kept, other ∉ field :: seen := by
      intro other member
      simp only [List.mem_cons, not_or]
      exact ⟨fun same => different (same ▸ member), fresh other (List.mem_cons_of_mem field member)⟩
    have step := setPair?_holds document merge l (keyed field) (holds field) first
      (fresh field List.mem_cons_self)
    obtain ⟨seen', run⟩ := ih { l with settings := l.settings.overlay s [field] } distinct apart
    refine ⟨seen', ?_⟩
    rw [List.foldlM_cons, step, ← overlay_cons l.settings s field kept]
    exact run

/-- Saved entries, of any fields and in any order, set these fields. -/
theorem ofYaml_entries {s : Settings} (storable : s.Storable) (base : Settings) {kept : List Field}
    (distinct : kept.Nodup) : base.ofYaml (kept.flatMap s.writtenEntry) = .ok (base.overlay s kept) := by
  by_cases empty : kept = []
  · subst empty
    rfl
  choose entry keyed lines holds using exists_entry storable
  have text : kept.flatMap s.writtenEntry = (kept.map entry).flatMap Yaml.ScalarEntry.line := by
    rw [List.flatMap_map]
    exact List.flatMap_congr fun field _ => (lines field).symm
  obtain ⟨nodes, line, parsed, read⟩ := Yaml.read?_entries (show kept.map entry ≠ [] by simpa using empty)
  obtain ⟨depth, enough⟩ : ∃ depth, mergeDepth (kept.flatMap s.writtenEntry).length = depth + 1 :=
    Nat.exists_eq_succ_of_ne_zero (Nat.mul_ne_zero (Nat.succ_ne_zero _) (Nat.succ_ne_zero _))
  obtain ⟨seen, folded⟩ := foldlM_setPair? { root := .mapping nodes line }
    (setAll? { root := .mapping nodes line } depth []) keyed holds { settings := base } distinct
    (show ∀ field ∈ kept, field ∉ [] by simp) (List.forall₂_map_left_iff.mp read)
  rw [ofYaml, enough, text, parsed]
  simp [setAll?, folded]

theorem ascii_entries {s : Settings} (storable : s.Storable) (kept : List Field) :
    ∀ c ∈ kept.flatMap s.writtenEntry, c.toNat < 0x80 := by
  intro c member
  obtain ⟨field, -, inside⟩ := List.mem_flatMap.mp member
  obtain ⟨e, -, line, -⟩ := exists_entry storable field
  rcases Yaml.ScalarEntry.printable_lines [e] c (by simpa [line] using inside) with printable | rfl
  · exact Nat.lt_of_le_of_lt printable.2 (by decide)
  · decide

end Settings

/-! Files. -/

theorem run_loadSettings {w : Surroundings} {path : String} {bytes : List UInt8} {s : Settings}
    (read : w.files.read w.directory path = .ok bytes)
    (loads : ({} : Settings).ofYaml (Text.decodeUtf8 bytes) = .ok s) :
    (loadSettings path : StateM Surroundings _).run w = (.ok (s, true), w) := by
  have ran : (loadSettings path : StateM Surroundings _).run w = pure (.ok (s, true), w) := by
    simp [loadSettings, Console.readFile, read, loads]
  exact ran

/-- What is written to a file is in it. -/
theorem run_writeFile {w : Surroundings} {path : String} (writable : w.files.Writable w.directory path)
    (content : List UInt8) :
    ∃ w', (Console.writeFile path content : StateM Surroundings _).run w = (.ok (), w') ∧
      w'.files.read w'.directory path = .ok content := by
  obtain ⟨files, put, read⟩ := FileTree.read_write writable content
  have ran : (Console.writeFile path content : StateM Surroundings _).run w =
      pure (.ok (), { w with files }) := by
    simp [Console.writeFile, put]
  exact ⟨{ w with files }, ran, read⟩

theorem load_entries {w : Surroundings} {path : String} {s : Settings} (storable : s.Storable)
    {kept : List Settings.Field} (distinct : kept.Nodup)
    (read : w.files.read w.directory path = .ok (String.ofList (kept.flatMap s.writtenEntry)).toUTF8.toList) :
    (loadSettings path : StateM Surroundings _).run w = (.ok (({} : Settings).overlay s kept, true), w) := by
  refine run_loadSettings read ?_
  rw [Text.decodeUtf8_ascii (Settings.ascii_entries storable kept)]
  exact Settings.ofYaml_entries storable {} distinct

/-- Saved settings are loaded as they were, and any of the saved entries, in any order, are loaded as the
defaults with just these fields replaced. -/
theorem saved_settings_regained (s : Settings) (storable : s.Storable) (path : String) (w : Surroundings) :
    (w.files.Writable w.directory path →
      ∃ w', (saveSettings s path : StateM Surroundings _).run w = (.ok (), w') ∧
        (loadSettings path : StateM Surroundings _).run w' = (.ok (s, true), w')) ∧
    ∀ kept : List Settings.Field, kept.Nodup →
      w.files.read w.directory path = .ok (String.ofList (kept.flatMap s.writtenEntry)).toUTF8.toList →
      (loadSettings path : StateM Surroundings _).run w = (.ok (({} : Settings).overlay s kept, true), w) := by
  constructor
  · intro writable
    obtain ⟨w', saved, read⟩ := run_writeFile writable (String.ofList s.toYaml).toUTF8.toList
    have loaded := load_entries storable (show Settings.Field.all.Nodup by decide) read
    rw [Settings.overlay_all] at loaded
    exact ⟨w', saved, loaded⟩
  · exact fun kept distinct read => load_entries storable distinct read

/-- At the ends of the numbers, with a text that would be null and one of quotes, escapes and a comment. -/
theorem saved_settings_regained_quoted :
    let s : Settings := {
      maxDepth := -9223372036854775808, maxEvalDepth := 9223372036854775807, color := false
      history := "~", prompt := " it's: \"5\" \\ #", showTokens := true }
    let kept : List Settings.Field := [.prompt, .maxDepth]
    let entries := (String.ofList (kept.flatMap s.writtenEntry)).toUTF8.toList
    let w : Surroundings := {
      files := { files := [(["s"], entries)], directories := [["etc"]] }, directory := ["etc"] }
    s.Storable ∧ w.files.Writable w.directory "../s" ∧ w.files.read w.directory "../s" = .ok entries ∧
      (∃ w', (saveSettings s "../s" : StateM Surroundings _).run w = (.ok (), w') ∧
        (loadSettings "../s" : StateM Surroundings _).run w' = (.ok (s, true), w')) ∧
      (loadSettings "../s" : StateM Surroundings _).run w =
        (.ok ({ maxDepth := -9223372036854775808, prompt := " it's: \"5\" \\ #" }, true), w) := by
  intro s kept entries w
  have storable : s.Storable :=
    ⟨by decide, by decide, List.all_iff_forall_prop.mp (by decide), List.all_iff_forall_prop.mp (by decide)⟩
  have split : "../s".splitOn "/" = ["..", "s"] := by cbv
  have relative : "../s".startsWith "/" = false := by decide +kernel
  have located : w.files.locate w.directory "../s" = .ok ["s"] := by
    simp [FileTree.locate, FileTree.walk, FileTree.item?, split, relative, w, List.lookup]
  have held : w.files.item? ["s"] = some (.file entries) := by
    simp [FileTree.item?, w]
  have writable : w.files.Writable w.directory "../s" := ⟨["s"], located, by simp [held], rfl⟩
  have read : w.files.read w.directory "../s" = .ok entries := by
    simp only [FileTree.read, located, held]
  have regained := saved_settings_regained s storable "../s" w
  exact ⟨storable, writable, read, regained.1 writable, regained.2 kept (by decide) read⟩

end LoxLang

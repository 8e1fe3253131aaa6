import LoxLang.Console.FileTree

/-! What is written to a path is read from it. The way to the path leads through directories only, and
writing a file leaves those as they are. -/
namespace LoxLang.FileTree

variable {t : FileTree} {place : Place}

theorem item?_put_self (t : FileTree) (place : Place) (content : List UInt8) :
    (t.put place content).item? place = some (.file content) := by
  simp [item?, put]

theorem lookup_filter_ne {files : List (Place × List UInt8)} {other : Place} (different : other ≠ place) :
    (files.filter (·.1 ≠ place)).lookup other = files.lookup other := by
  induction files with
  | nil => rfl
  | cons file files ih =>
    by_cases same : file.1 = place
    · rw [List.filter_cons_of_neg (by simp [same]), ih, List.lookup_cons, beq_false_of_ne (same ▸ different)]
    · rw [List.filter_cons_of_pos (by simp [same]), List.lookup_cons, List.lookup_cons, ih]

theorem item?_put_ne {other : Place} (different : other ≠ place) (content : List UInt8) :
    (t.put place content).item? other = t.item? other := by
  have kept : (t.put place content).files.lookup other = t.files.lookup other := by
    rw [put, List.lookup_cons, beq_false_of_ne different, lookup_filter_ne different]
  simp only [item?, kept]
  rfl

/-- A directory is still one when a file has been put elsewhere. -/
theorem directory_put {origin : Place} (directory : t.item? origin = some .directory)
    (file : t.item? place ≠ some .directory) (content : List UInt8) :
    (t.put place content).item? origin = some .directory := by
  rw [item?_put_ne _ content, directory]
  rintro rfl
  exact file directory

/-- Putting a file where no directory is changes no directory, so every way leads where it led. -/
theorem walk_put {origin target : Place} {names : List String} (walks : t.walk origin names = .ok target)
    (file : t.item? place ≠ some .directory) (content : List UInt8) :
    (t.put place content).walk origin names = .ok target := by
  induction names generalizing origin with
  | nil => exact walks
  | cons name names ih =>
    unfold walk at walks ⊢
    cases item : t.item? origin with
    | none => simp [item] at walks
    | some kind =>
      cases kind with
      | file => simp [item] at walks
      | directory =>
        simp only [item] at walks
        simp only [directory_put item file content]
        split at walks
        · rename_i same
          rw [if_pos same]
          exact ih walks
        · rename_i other
          rw [if_neg other]
          split at walks
          · rename_i up
            rw [if_pos up]
            exact ih walks
          · rename_i down
            rw [if_neg down]
            exact ih walks

theorem locate_put {directory target : Place} (found : t.locate directory path = .ok target)
    (file : t.item? place ≠ some .directory) (content : List UInt8) :
    (t.put place content).locate directory path = .ok target := by
  unfold locate at found ⊢
  split at found
  · contradiction
  · rename_i named
    rw [if_neg named, walk_put found file]

/-- A path at which a file can be written: it leads into a directory, and not to one. -/
def Writable (t : FileTree) (directory : Place) (path : String) : Prop :=
  ∃ place, t.locate directory path = .ok place ∧ t.item? place ≠ some .directory ∧
    t.item? place.dropLast = some .directory

/-- The content comes back byte by byte, also if a file was there before. -/
theorem read_write {directory : Place} (writable : t.Writable directory path) (content : List UInt8) :
    ∃ t', t.write directory path content = .ok t' ∧ t'.read directory path = .ok content := by
  obtain ⟨place, found, file, parent⟩ := writable
  refine ⟨t.put place content, ?_, ?_⟩
  · rw [write, found]
    simp only [parent]
  · rw [read, locate_put found file]
    simp only [item?_put_self]

end LoxLang.FileTree

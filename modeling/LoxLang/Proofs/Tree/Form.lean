import LoxLang.Proofs.Scanner.Lexemes
import LoxLang.Tree.Printer

/-! Forms: words, and lists in parentheses that begin with a word. A text is that of one form at most, and it
shows where the form ends: a word ends at the first delimiter, and a list at its own closing parenthesis. -/
namespace LoxLang

inductive Form where
  | atom (text : String)
  | node (head : String) (parts : List Form)

namespace Form

mutual

def render : Form → List Char
  | atom text => text.toList
  | node head parts => '(' :: (head.toList ++ (renderParts parts ++ [')']))

def renderParts : List Form → List Char
  | [] => []
  | f :: fs => ' ' :: (f.render ++ renderParts fs)

end

theorem renderParts_eq (fs : List Form) : renderParts fs = fs.flatMap (' ' :: ·.render) := by
  induction fs with
  | nil => rfl
  | cons f fs ih => rw [renderParts, ih, List.flatMap_cons, List.cons_append]

def delimiters : List Char := [' ', '\n', '(', ')']

structure Word (text : String) : Prop where
  nonempty : text.toList ≠ []
  undivided : ∀ c ∈ text.toList, c ∉ delimiters

instance (text : String) : Decidable (Word text) :=
  decidable_of_iff (text.toList ≠ [] ∧ text.toList.all (· ∉ delimiters) = true)
    ⟨fun ⟨nonempty, all⟩ => ⟨nonempty, by simpa using all⟩,
      fun word => ⟨word.nonempty, by simpa using word.undivided⟩⟩

/-- The form is made of words. -/
inductive Legible : Form → Prop where
  | atom : Word text → Legible (.atom text)
  | node : Word head → (∀ f ∈ parts, Legible f) → Legible (.node head parts)

/-- A word before the characters ends there. -/
def Closed (rest : List Char) : Prop :=
  ∀ c ∈ rest.head?, c ∈ delimiters

theorem closed_nil : Closed [] := by simp [Closed]

theorem closed_cons (delimiter : c ∈ delimiters) : Closed (c :: rest) := by simpa [Closed] using delimiter

/-- Words hold no delimiter, so two texts that begin with words agree on where these end. -/
theorem Word.unique (first : Word text) (second : Word other) (closed : Closed rest) (closed' : Closed left)
    (same : text.toList ++ rest = other.toList ++ left) : text = other ∧ rest = left := by
  have split : ∀ {text rest}, Word text → Closed rest →
      (text.toList ++ rest).takeWhile (· ∉ delimiters) = text.toList ∧
      (text.toList ++ rest).dropWhile (· ∉ delimiters) = rest := fun word closed =>
    Piece.span_ends (by simpa using word.undivided) (by simpa [Closed] using closed)
  obtain ⟨taken, after⟩ := split first closed
  obtain ⟨taken', after'⟩ := split second closed'
  rw [← same] at taken' after'
  exact ⟨String.toList_injective (taken.symm.trans taken'), after.symm.trans after'⟩

theorem Word.not_parenthesis (word : Word text) : text.toList ++ rest ≠ '(' :: left := by
  intro same
  obtain ⟨c, more, begins⟩ := List.exists_cons_of_ne_nil word.nonempty
  rw [begins, List.cons_append] at same
  obtain ⟨rfl, _⟩ := List.cons.inj same
  exact word.undivided '(' (begins ▸ List.mem_cons_self) (by decide)

/-- The text of the form shows where it ends, and belongs to no other form. -/
def Unique (f : Form) : Prop :=
  ∀ g rest left, g.Legible → Closed rest → Closed left → f.render ++ rest = g.render ++ left →
    f = g ∧ rest = left

theorem closed_parts (delimiter : lead ∈ delimiters) (closed : Closed rest) (fs : List Form) :
    Closed (fs.flatMap (lead :: ·.render) ++ rest) := by
  cases fs with
  | nil => exact closed
  | cons f fs => exact closed_cons delimiter

/-- Forms that each follow the same delimiter, and something else after the last one. -/
theorem parts_unique (delimiter : lead ∈ delimiters) {fs gs : List Form} (unique : ∀ f ∈ fs, f.Unique)
    (legible : ∀ g ∈ gs, g.Legible) (closed : Closed rest) (closed' : Closed left)
    (ends : rest.head? ≠ some lead) (ends' : left.head? ≠ some lead)
    (same : fs.flatMap (lead :: ·.render) ++ rest = gs.flatMap (lead :: ·.render) ++ left) :
    fs = gs ∧ rest = left := by
  induction fs generalizing gs with
  | nil =>
    cases gs with
    | nil => exact ⟨rfl, same⟩
    | cons g gs => exact absurd (congrArg List.head? same) ends
  | cons f fs ih =>
    cases gs with
    | nil => exact absurd (congrArg List.head? same.symm) ends'
    | cons g gs =>
      obtain ⟨here, later⟩ := List.forall_mem_cons.mp unique
      obtain ⟨here', later'⟩ := List.forall_mem_cons.mp legible
      simp only [List.flatMap_cons, List.cons_append, List.append_assoc, List.cons.injEq, true_and] at same
      obtain ⟨rfl, below⟩ := here g _ _ here' (closed_parts delimiter closed fs)
        (closed_parts delimiter closed' gs) same
      obtain ⟨rfl, rest_eq⟩ := ih later later' below
      exact ⟨rfl, rest_eq⟩

/-- By induction on the form: the head is a word, and the parts end at the parenthesis that closes them. -/
theorem Legible.unique {f : Form} (legible : f.Legible) : f.Unique := by
  induction legible with
  | atom word =>
    intro g rest left legible closed closed' same
    cases legible with
    | atom word' =>
      obtain ⟨rfl, rest_eq⟩ := word.unique word' closed closed' same
      exact ⟨rfl, rest_eq⟩
    | node => exact absurd same word.not_parenthesis
  | node word _ ih =>
    intro g rest left legible closed closed' same
    cases legible with
    | atom word' => exact absurd same.symm word'.not_parenthesis
    | node word' parts' =>
      have parenthesis : ∀ more : List Char, Closed (')' :: more) := fun _ => closed_cons (by decide)
      simp only [render, renderParts_eq, List.cons_append, List.append_assoc, List.cons.injEq, true_and,
        List.nil_append] at same
      obtain ⟨rfl, below⟩ := word.unique word' (closed_parts (by decide) (parenthesis rest) _)
        (closed_parts (by decide) (parenthesis left) _) same
      obtain ⟨rfl, after⟩ := parts_unique (by decide) ih parts' (parenthesis rest) (parenthesis left)
        (by simp) (by simp) below
      exact ⟨rfl, List.cons.inj after |>.2⟩

def renderLines : List Form → List Char
  | [] => []
  | f :: fs => f.render ++ fs.flatMap ('\n' :: ·.render)

theorem Legible.render_ne_nil {f : Form} (legible : f.Legible) : f.render ≠ [] := by
  cases legible with
  | atom word => exact word.nonempty
  | node => exact List.cons_ne_nil _ _

/-- Lines can be read back: no two rows of forms have the same text. -/
theorem renderLines_injective {fs gs : List Form} (first : ∀ f ∈ fs, f.Legible) (second : ∀ g ∈ gs, g.Legible)
    (same : renderLines fs = renderLines gs) : fs = gs := by
  cases fs with
  | nil =>
    cases gs with
    | nil => rfl
    | cons g gs => exact absurd (List.append_eq_nil_iff.mp same.symm).1 (second g List.mem_cons_self).render_ne_nil
  | cons f fs =>
    cases gs with
    | nil => exact absurd (List.append_eq_nil_iff.mp same).1 (first f List.mem_cons_self).render_ne_nil
    | cons g gs =>
      obtain ⟨here, later⟩ := List.forall_mem_cons.mp first
      obtain ⟨here', later'⟩ := List.forall_mem_cons.mp second
      have newline : '\n' ∈ delimiters := by decide
      have closed : ∀ es : List Form, Closed (es.flatMap ('\n' :: ·.render)) := fun es => by
        simpa using closed_parts newline closed_nil es
      obtain ⟨rfl, below⟩ := here.unique g _ _ here' (closed fs) (closed gs) same
      obtain ⟨rfl, -⟩ := parts_unique newline (fun f member => (later f member).unique) later' closed_nil
        closed_nil (by simp) (by simp) (by simpa using below)
      rfl

end Form

theorem intercalate_cons (lead : Char) (text : List Char) (texts : List (List Char)) :
    [lead].intercalate (text :: texts) = text ++ texts.flatMap (lead :: ·) := by
  induction texts generalizing text with
  | nil => simp [List.intercalate]
  | cons other texts ih =>
    simp only [List.intercalate, List.intersperse_cons_cons, List.flatten_cons] at ih ⊢
    rw [ih other]
    simp

namespace Form

def text (f : Form) : String := String.ofList f.render

@[simp] theorem toList_text (f : Form) : f.text.toList = f.render := String.toList_ofList

@[simp] theorem text_atom (text : String) : (atom text).text = text := String.ofList_toList

@[simp] theorem text_node (head : String) (parts : List Form) :
    (node head parts).text = parenthesized (head :: parts.map Form.text) := by
  apply String.toList_injective
  simp only [toList_text, parenthesized, String.toList_append, String.toList_intercalate, List.map_cons]
  change _ = '(' :: ([' '].intercalate _ ++ [')'])
  rw [intercalate_cons, render, renderParts_eq, List.append_assoc]
  simp [List.flatMap_map]

theorem text_lines (forms : List Form) :
    "\n".intercalate (forms.map Form.text) = String.ofList (renderLines forms) := by
  apply String.toList_injective
  rw [String.toList_intercalate, String.toList_ofList]
  cases forms with
  | nil => rfl
  | cons f fs =>
    simp [intercalate_cons, renderLines, List.flatMap_map]

end Form

end LoxLang

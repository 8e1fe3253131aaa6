import LoxLang.Schema.Generator
import LoxLang.Schema.Reader
import Mathlib.Data.List.Nodup
import Mathlib.Data.List.Pairwise

/-! The receivers of marker methods. A method cannot be declared on an interface, so a case that holds a sum type is
written as a struct around it. Only the name of the sum type itself is told for one: a case that holds a plain
declaration of a sum type is written as this type, and its method is declared on an interface after all. -/
namespace LoxLang.Schema

variable {s : Schema}

/-- The name is that of a sum type, or of a plain declaration whose kind leads to one. `links` are the names of the
plain declarations on the way. -/
inductive LeadsToSum (s : Schema) : (links : List String) → (name : String) → Prop where
  | sum {name : String} {cases : List Case} :
      { name, body := .sum cases } ∈ s.declarations → LeadsToSum s [] name
  | plain {name kind : String} {links : List String} : { name, body := .plain kind } ∈ s.declarations →
      LeadsToSum s links kind → LeadsToSum s (name :: links) name

/-- The name is declared as an interface among the items, or as a type that is one. -/
inductive IsInterface (items : List Item) : String → Prop where
  | marked {name marker : String} : .type name (.marked marker) ∈ items → IsInterface items name
  | kind {name kind : String} : .type name (.kind kind) ∈ items → IsInterface items kind → IsInterface items name

namespace Item

def typeName? : Item → Option String
  | type name _ => some name
  | method _ _ => none

def method? : Item → Option (String × String)
  | type _ _ => none
  | method receiver marker => some (receiver, marker)

end Item

/-! What is told for a sum type. -/

theorem isSumType_iff : s.isSumType name = true ↔ s.LeadsToSum [] name := by
  constructor
  · intro found
    obtain ⟨⟨declared, body⟩, member, same⟩ := List.any_eq_true.mp found
    obtain ⟨named, sum⟩ := Bool.and_eq_true_iff.mp same
    obtain rfl : declared = name := beq_iff_eq.mp named
    cases body with
    | plain kind => contradiction
    | sum cases => exact .sum member
  · rintro ⟨member⟩
    exact List.any_eq_true.mpr ⟨_, member, by simp [Declaration.isSum]⟩

/-- Where names are declared once, one that leads to a sum type is told for it only if it is its own. -/
theorem LeadsToSum.isSumType_iff_direct (distinct : (s.declarations.map Declaration.name).Nodup)
    (leads : s.LeadsToSum links name) : s.isSumType name = true ↔ links = [] := by
  cases leads with
  | sum member => exact iff_of_true (isSumType_iff.mpr (.sum member)) rfl
  | plain member rest =>
    refine iff_of_false (fun found => ?_) (List.cons_ne_nil _ _)
    obtain ⟨other⟩ := isSumType_iff.mp found
    have same := List.inj_on_of_nodup_map distinct member other rfl
    exact Body.noConfusion (congrArg Declaration.body same)

/-! The items of a schema. -/

theorem flatMap_within {f : α → List β} {row : List α} (member : a ∈ row) : f a <:+: row.flatMap f := by
  obtain ⟨before, after, rfl⟩ := List.append_of_mem member
  exact ⟨before.flatMap f, after.flatMap f, by simp⟩

theorem declarationItems_within {d : Declaration} (declared : d ∈ s.declarations) :
    s.declarationItems d <:+: s.items :=
  flatMap_within declared

theorem caseItems_within {d : Declaration} (declared : d ∈ s.declarations) {c : Case} (member : c ∈ d.cases) :
    s.caseItems d.name c <:+: s.items := by
  obtain ⟨name, body⟩ := d
  cases body with
  | plain kind => contradiction
  | sum cases =>
    have inside : s.caseItems name c <:+: s.declarationItems ⟨name, .sum cases⟩ :=
      List.IsInfix.trans (flatMap_within member) (List.suffix_cons _ _).isInfix
    exact inside.trans (declarationItems_within declared)

/-- Every case makes one type and then one method, and every declaration one type before those of its cases. -/
theorem items_typeNames (s : Schema) :
    s.items.filterMap Item.typeName? = s.declarations.flatMap fun d => d.name :: d.cases.map Case.name := by
  rw [items, List.filterMap_flatMap]
  congr 1
  funext ⟨name, body⟩
  cases body with
  | plain kind => rfl
  | sum cases =>
    simp only [declarationItems, Declaration.cases, List.filterMap_cons, List.filterMap_flatMap, Item.typeName?,
      caseItems, List.filterMap_nil]
    rw [List.map_eq_flatMap]

theorem items_methods (s : Schema) :
    s.items.filterMap Item.method? =
      s.declarations.flatMap fun d => d.cases.map fun c => (c.name, marker d.name) := by
  rw [items, List.filterMap_flatMap]
  congr 1
  funext ⟨name, body⟩
  cases body with
  | plain kind => rfl
  | sum cases =>
    simp only [declarationItems, Declaration.cases, List.filterMap_cons, List.filterMap_flatMap, Item.method?,
      caseItems, List.filterMap_nil]
    rw [List.map_eq_flatMap]

/-- Where types are declared once, the items say what a name is declared as. -/
theorem type_unique {items : List Item} (distinct : (items.filterMap Item.typeName?).Nodup)
    (first : .type name form ∈ items) (second : .type name form' ∈ items) : form = form' := by
  by_contra different
  have apart := List.pairwise_filterMap.mp distinct
  have symmetric : Std.Symm fun a b : Item => ∀ x ∈ a.typeName?, ∀ y ∈ b.typeName?, x ≠ y :=
    ⟨fun _ _ apart x found y found' => (apart y found' x found).symm⟩
  exact apart.forall first second (fun same => different (Item.type.inj same).2) name rfl name rfl rfl

/-! Interfaces. -/

theorem LeadsToSum.isInterface (leads : s.LeadsToSum links name) : IsInterface s.items name := by
  induction leads with
  | sum member => exact .marked ((declarationItems_within member).subset List.mem_cons_self)
  | plain member _ ih => exact .kind ((declarationItems_within member).subset List.mem_cons_self) ih

/-- A case that holds a sum type is written as a struct, and one that holds a plain declaration of a sum type as an
interface. -/
theorem LeadsToSum.caseForm (distinct : (s.declarations.map Declaration.name).Nodup)
    (leads : s.LeadsToSum links kind) (holds : c.payload = .type kind) :
    s.caseForm c = if links = [] then .around kind else .kind kind := by
  simp only [Schema.caseForm, holds, leads.isSumType_iff_direct distinct]

/-- Every case of a sum type makes one type and one method, in the order of the declarations. Where the case holds a
kind that leads to a sum type, the type is a struct around this kind exactly if the kind names the sum type itself.
Otherwise the receiver of the method is an interface. -/
theorem cases_embed_named_sum_types (s : Schema) (distinct : (s.declarations.map Declaration.name).Nodup) :
    (∀ d ∈ s.declarations, ∀ c ∈ d.cases, ∀ kind links, c.payload = .type kind → s.LeadsToSum links kind →
      [.type c.name (if links = [] then .around kind else .kind kind), .method c.name (marker d.name)] <:+: s.items ∧
        ((s.items.filterMap Item.typeName?).Nodup → (IsInterface s.items c.name ↔ links ≠ []))) ∧
      s.items.filterMap Item.typeName? = (s.declarations.flatMap fun d => d.name :: d.cases.map Case.name) ∧
      s.items.filterMap Item.method? =
        s.declarations.flatMap fun d => d.cases.map fun c => (c.name, marker d.name) := by
  refine ⟨fun d declared c member kind links holds leads => ?_, items_typeNames s, items_methods s⟩
  have written := caseItems_within declared member
  rw [caseItems, leads.caseForm distinct holds] at written
  refine ⟨written, fun once => ?_⟩
  have here := written.subset List.mem_cons_self
  split at here
  · rename_i direct
    refine iff_of_false (fun found => ?_) (not_not_intro direct)
    cases found with
    | marked other => exact TypeForm.noConfusion (type_unique once here other)
    | kind other _ => exact TypeForm.noConfusion (type_unique once here other)
  · rename_i indirect
    exact iff_of_true (.kind here leads.isInterface) indirect

/-- Two cases of a sum type, of which one holds the type itself and the other one a plain declaration of it. -/
theorem cases_embed_named_sum_types_beside_plain :
    let s : Schema := { declarations := [
      ⟨"Plain", .plain "Sum"⟩, ⟨"Sum", .sum [⟨"Direct", .type "Sum"⟩, ⟨"Indirect", .type "Plain"⟩]⟩] }
    (s.declarations.map Declaration.name).Nodup ∧ s.LeadsToSum [] "Sum" ∧ s.LeadsToSum ["Plain"] "Plain" ∧
      [.type "Direct" (.around "Sum"), .method "Direct" "is_Sum"] <:+: s.items ∧ ¬ IsInterface s.items "Direct" ∧
      [.type "Indirect" (.kind "Plain"), .method "Indirect" "is_Sum"] <:+: s.items ∧
      IsInterface s.items "Indirect" := by
  intro s
  have distinct : (s.declarations.map Declaration.name).Nodup := by decide
  have once : (s.items.filterMap Item.typeName?).Nodup := by decide
  have sum : s.LeadsToSum [] "Sum" := .sum (List.mem_cons_of_mem _ List.mem_cons_self)
  have plain : s.LeadsToSum ["Plain"] "Plain" := .plain List.mem_cons_self sum
  have each := (cases_embed_named_sum_types s distinct).1 _ (List.mem_cons_of_mem _ List.mem_cons_self)
  obtain ⟨direct, struct⟩ := each ⟨"Direct", .type "Sum"⟩ List.mem_cons_self "Sum" [] rfl sum
  obtain ⟨indirect, interface⟩ := each ⟨"Indirect", .type "Plain"⟩
    (List.mem_cons_of_mem _ List.mem_cons_self) "Plain" ["Plain"] rfl plain
  exact ⟨distinct, sum, plain, direct, fun found => (struct once).mp found rfl, indirect,
    (interface once).mpr (List.cons_ne_nil _ _)⟩

/-- The case holds a plain declaration of its own sum type, and is not written as a struct around it. -/
theorem plain_sum_type_not_embedded :
    let s : Schema := { declarations := [⟨"A", .plain "B"⟩, ⟨"B", .sum [⟨"Z", .type "A"⟩]⟩] }
    read? "type A = B; type B = | Z of A;".toList = some s ∧ (s.items.filterMap Item.typeName?).Nodup ∧
      s.LeadsToSum ["A"] "A" ∧ .type "Z" (.around "A") ∉ s.items ∧ IsInterface s.items "Z" ∧
      s.generate "p" = "// Code generated by adtGen. DO NOT EDIT.\n\npackage p\n\ntype A B\n" ++
        "type B interface \x7b\n\tis_B()\n\x7d\ntype Z A\n\nfunc (v Z) is_B() \x7b\x7d\n" := by
  intro s
  have leads : s.LeadsToSum ["A"] "A" :=
    .plain List.mem_cons_self (.sum (List.mem_cons_of_mem _ List.mem_cons_self))
  have written : .type "Z" (.kind "A") ∈ s.items := by decide
  exact ⟨by decide +kernel, by decide, leads, by decide, .kind written leads.isInterface, by decide +kernel⟩

end LoxLang.Schema

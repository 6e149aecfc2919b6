import KeyholeMarkup.Proofs.Schema.Reordering
import Mathlib.Data.List.Induction
import Mathlib.Data.List.Nodup

/-! The members of substitution groups, as they are listed by declarations of elements. A declaration
takes the place of an earlier one of its name, but the listing of the earlier one stays. -/
namespace KeyholeMarkup.Schema
open KeyholeMarkup.Xml

namespace Components

def membersOf (components : Components) (head : Name) : List Name :=
  (components.substitutions.find? head).getD []

/-- The element of a name is declared to be in the group of a head. -/
def Declares (components : Components) (member head : Name) : Prop :=
  ∃ declaration, components.elements.find? member = some declaration ∧
    declaration.substitutes = some head

/-- Every element is listed where it is declared to be. -/
def Lists (components : Components) : Prop :=
  ∀ member head, components.Declares member head → member ∈ components.membersOf head

/-- The groups list the elements that are declared to be in them and no others, each once. -/
structure Mirrors (components : Components) : Prop where
  mem_iff : ∀ member head, member ∈ components.membersOf head ↔ components.Declares member head
  once : ∀ head, (components.membersOf head).Nodup

section
variable (components : Components) (declaration : ElementDeclaration)

theorem membersOf_addElement (head : Name) :
    (components.addElement declaration).membersOf head =
      components.membersOf head ++
        if declaration.substitutes = some head then [declaration.name] else [] := by
  have found := find?_substitutions_add components (.element declaration) head
  rw [add, Definition.memberOf?] at found
  rw [membersOf, found, membersOf]
  split
  · rename_i apart
    split at apart
    · cases apart
    · rename_i other
      rw [if_neg other, List.append_nil]
  · rename_i joined
    split at joined
    · rename_i same
      rw [if_pos same, Option.getD_some, Option.some.inj joined]
    · cases joined

theorem mem_membersOf_addElement {member head : Name} :
    member ∈ (components.addElement declaration).membersOf head ↔
      member ∈ components.membersOf head ∨
        member = declaration.name ∧ declaration.substitutes = some head := by
  rw [membersOf_addElement, List.mem_append]
  split <;> simp [*]

theorem nodup_membersOf_addElement {head : Name} :
    ((components.addElement declaration).membersOf head).Nodup ↔
      (components.membersOf head).Nodup ∧
        (declaration.substitutes = some head → declaration.name ∉ components.membersOf head) := by
  rw [membersOf_addElement]
  split
  · rename_i joins
    rw [← List.concat_eq_append, List.nodup_concat]
    simp [joins, and_comm]
  · rename_i apart
    simp [apart]

theorem declares_addElement {member head : Name} :
    (components.addElement declaration).Declares member head ↔
      if member = declaration.name then declaration.substitutes = some head
      else components.Declares member head := by
  have found : (components.addElement declaration).elements.find? member =
      if member = declaration.name then some declaration else components.elements.find? member :=
    Table.find?_insert _ _ _ _
  unfold Declares
  rw [found]
  split <;> simp

variable {components} {declaration}

theorem Lists.addElement (lists : components.Lists) :
    (components.addElement declaration).Lists := by
  intro member head joins
  rw [declares_addElement] at joins
  rw [mem_membersOf_addElement]
  split at joins
  · exact .inr ⟨‹_›, joins⟩
  · exact .inl (lists member head joins)

/-- Groups that mirror the declarations go on to do so with the declaration of an element that none of
them lists yet, and with no other one. -/
theorem mirrors_addElement_iff (lists : components.Lists) :
    (components.addElement declaration).Mirrors ↔
      components.Mirrors ∧ ∀ head, declaration.name ∉ components.membersOf head := by
  constructor
  · intro mirrors
    have unlisted (head : Name) : declaration.name ∉ components.membersOf head := by
      intro listed
      have again := (mirrors.mem_iff declaration.name head).mp
        ((mem_membersOf_addElement components declaration).mpr (.inl listed))
      rw [declares_addElement, if_pos rfl] at again
      exact ((nodup_membersOf_addElement components declaration).mp (mirrors.once head)).2 again listed
    refine ⟨⟨fun member head => ?_, fun head => ?_⟩, unlisted⟩
    · by_cases same : member = declaration.name
      · rw [same]
        exact ⟨fun listed => absurd listed (unlisted head), lists _ _⟩
      · have own := mirrors.mem_iff member head
        rw [declares_addElement, if_neg same, mem_membersOf_addElement] at own
        rw [← own]
        simp [same]
    · exact ((nodup_membersOf_addElement components declaration).mp (mirrors.once head)).1
  · rintro ⟨mirrors, unlisted⟩
    refine ⟨fun member head => ?_, fun head => ?_⟩
    · rw [declares_addElement, mem_membersOf_addElement]
      split
      · rename_i same
        simp [same, unlisted head]
      · rename_i other
        simp [other, mirrors.mem_iff]
    · exact (nodup_membersOf_addElement components declaration).mpr
        ⟨mirrors.once head, fun _ => unlisted head⟩

end

/-- The components that declarations of elements make up, in this order. -/
def ofElements (declarations : List ElementDeclaration) : Components :=
  declarations.foldl addElement none

theorem ofElements_concat (declarations : List ElementDeclaration) (last : ElementDeclaration) :
    ofElements (declarations ++ [last]) = (ofElements declarations).addElement last := by
  rw [ofElements, List.foldl_append]
  rfl

theorem membersOf_ofElements (declarations : List ElementDeclaration) (head : Name) :
    (ofElements declarations).membersOf head =
      (declarations.filter (·.substitutes = some head)).map (·.name) := by
  induction declarations using List.reverseRecOn with
  | nil => rfl
  | append_singleton declarations last ih =>
    rw [ofElements_concat, membersOf_addElement, ih, List.filter_append, List.map_append]
    by_cases joins : last.substitutes = some head <;> simp [joins]

theorem find?_ofElements (declarations : List ElementDeclaration) (name : Name) :
    (ofElements declarations).elements.find? name = declarations.reverse.find? (·.name = name) := by
  induction declarations using List.reverseRecOn with
  | nil => rfl
  | append_singleton declarations last ih =>
    have found := Table.find?_insert (ofElements declarations).elements last.name name last
    rw [ofElements_concat, List.reverse_append]
    refine found.trans ?_
    by_cases same : last.name = name
    · simp [same]
    · simp [same, Ne.symm same, ih]

theorem not_declares_none (member head : Name) : ¬ none.Declares member head := by
  rintro ⟨declaration, found, -⟩
  cases found

theorem lists_ofElements (declarations : List ElementDeclaration) :
    (ofElements declarations).Lists := by
  induction declarations using List.reverseRecOn with
  | nil => exact fun member head joins => absurd joins (not_declares_none member head)
  | append_singleton declarations last ih =>
    rw [ofElements_concat]
    exact ih.addElement

/-- A declaration that joins a group, and a later one of the same element. -/
def Redeclared (earlier later : ElementDeclaration) : Prop :=
  earlier.substitutes.isSome ∧ earlier.name = later.name

theorem mirrors_ofElements_iff (declarations : List ElementDeclaration) :
    (ofElements declarations).Mirrors ↔
      declarations.Pairwise fun earlier later => ¬ Redeclared earlier later := by
  induction declarations using List.reverseRecOn with
  | nil =>
    exact iff_of_true ⟨fun member head => iff_of_false List.not_mem_nil (not_declares_none member head),
      fun _ => .nil⟩ .nil
  | append_singleton declarations last ih =>
    have unlisted : (∀ head, last.name ∉ (ofElements declarations).membersOf head) ↔
        ∀ earlier ∈ declarations, ¬ Redeclared earlier last := by
      simp only [membersOf_ofElements, List.mem_map, List.mem_filter, decide_eq_true_eq, not_exists,
        not_and, Redeclared, Option.isSome_iff_exists]
      constructor
      · rintro unlisted earlier member ⟨head, joins⟩
        exact unlisted head earlier ⟨member, joins⟩
      · rintro apart head earlier ⟨member, joins⟩
        exact apart earlier member ⟨head, joins⟩
    rw [ofElements_concat, mirrors_addElement_iff (lists_ofElements declarations), ih, unlisted,
      List.pairwise_append]
    simp

/-- A group lists all declarations that join it, in order, while a name leads to its last declaration
alone. So the groups list every element where it is declared to be; they list no others, and none
twice, exactly if no element that has joined a group is declared again. -/
theorem groups_mirror_iff (declarations : List ElementDeclaration) :
    (∀ head, (ofElements declarations).membersOf head =
      (declarations.filter (·.substitutes = some head)).map (·.name)) ∧
    (∀ name, (ofElements declarations).elements.find? name =
      declarations.reverse.find? (·.name = name)) ∧
    (∀ member head, (ofElements declarations).Declares member head →
      member ∈ (ofElements declarations).membersOf head) ∧
    ((ofElements declarations).Mirrors ↔
      declarations.Pairwise fun earlier later => ¬ Redeclared earlier later) :=
  ⟨membersOf_ofElements declarations, find?_ofElements declarations, lists_ofElements declarations,
    mirrors_ofElements_iff declarations⟩

/-- Declared again without a group, an element stays in the group it joined. -/
example : (ofElements [⟨.plain "a", .unspecified, some (.plain "h"), false⟩,
    ⟨.plain "a", .unspecified, .none, false⟩]).membersOf (.plain "h") = [.plain "a"] := by rfl

end Components
end KeyholeMarkup.Schema

import KeyholeMarkup.Proofs.Schema.Substitution
import KeyholeMarkup.Schema.Validation

/-! Components that answer alike. A document is checked by looking components up by name, and of a
substitution group only the members count, so the order of the tables and of the members makes no
difference to the issues. -/
namespace KeyholeMarkup.Schema
open KeyholeMarkup.Xml

/-- A name leads to the same component in both, and a head to the same members in any order. -/
structure Components.Alike (first second : Components) : Prop where
  elements : ∀ name, second.elements.find? name = first.elements.find? name
  types : ∀ name, second.types.find? name = first.types.find? name
  groups : ∀ name, second.groups.find? name = first.groups.find? name
  attributeGroups : ∀ name, second.attributeGroups.find? name = first.attributeGroups.find? name
  substitutions : ∀ head,
    Option.Rel List.Perm (first.substitutions.find? head) (second.substitutions.find? head)

theorem Joins.reordered {groups groups' : Table (List Name)} {heads : List Name} {member : Name}
    (alike : ∀ head, Option.Rel List.Perm (groups.find? head) (groups'.find? head))
    (joins : Joins groups heads member) : Joins groups' heads member := by
  have group {head : Name} {members : List Name} (found : groups.find? head = some members) :
      ∃ members', groups'.find? head = some members' ∧ members.Perm members' := by
    have related := alike head
    rw [found] at related
    generalize groups'.find? head = found' at related
    cases related with
    | some same => exact ⟨_, rfl, same⟩
  induction joins with
  | direct listed found inside =>
    obtain ⟨members', found', same⟩ := group found
    exact .direct listed found' (same.mem_iff.mp inside)
  | through _ found inside ih =>
    obtain ⟨members', found', same⟩ := group found
    exact .through ih found' (same.mem_iff.mp inside)

namespace Components.Alike
variable {first second : Components} (alike : first.Alike second)
include alike

theorem symm : second.Alike first := by
  refine ⟨?_, ?_, ?_, ?_, ?_⟩
  · exact fun name => (alike.elements name).symm
  · exact fun name => (alike.types name).symm
  · exact fun name => (alike.groups name).symm
  · exact fun name => (alike.attributeGroups name).symm
  · intro head
    have related := alike.substitutions head
    generalize first.substitutions.find? head = members,
      second.substitutions.find? head = members' at related
    cases related with
    | none => exact .none
    | some same => exact .some same.symm

theorem substitutesFor (member head : Name) :
    second.substitutesFor member head = first.substitutesFor member head := by
  rw [Bool.eq_iff_iff, substitutesFor_iff, substitutesFor_iff]
  exact ⟨Joins.reordered alike.symm.substitutions, Joins.reordered alike.substitutions⟩

theorem withGroups (depth : Nat) : second.withGroups depth = first.withGroups depth := by
  induction depth with
  | zero => rfl
  | succ depth ih =>
    funext names type
    simp only [Components.withGroups, alike.attributeGroups, ih]

theorem namedType : second.namedType = first.namedType := by
  funext name resolve
  simp only [Components.namedType, alike.types]

theorem definedType (depth : Nat) : second.definedType depth = first.definedType depth := by
  induction depth with
  | zero =>
    funext definition
    cases definition with
    | simple => rfl
    | complex type =>
      simp only [Components.definedType, Components.completeType, alike.withGroups]
  | succ depth ih =>
    funext definition
    cases definition with
    | simple => rfl
    | complex type =>
      simp only [Components.definedType, Components.completeType, alike.withGroups,
        alike.namedType, ih]

theorem typeOf (depth : Nat) : second.typeOf depth = first.typeOf depth := by
  induction depth with
  | zero => rfl
  | succ depth ih =>
    funext declaration
    simp only [Components.typeOf, alike.namedType, alike.definedType, alike.elements, ih]

theorem admission (child : Name) (depth : Nat) :
    second.admission child depth = first.admission child depth := by
  induction depth with
  | zero =>
    funext particle
    cases particle <;>
      simp only [Components.admission, alike.substitutesFor, alike.elements]
  | succ depth ih =>
    funext particle
    cases particle <;>
      simp only [Components.admission, alike.substitutesFor, alike.elements, alike.groups, ih]

theorem assessDeclared : second.assessDeclared = first.assessDeclared := by
  funext declaration element path
  simp only [Components.assessDeclared, Components.assessChild, Components.globalTarget,
    alike.typeOf, alike.elements, alike.admission]

theorem assess : second.assess = first.assess := by
  funext target element path
  simp only [Components.assess, alike.assessDeclared, alike.elements]

theorem visit (targets : List (Target × String)) (content : Content) :
    second.visit targets content = first.visit targets content := by
  induction content generalizing targets with
  | empty => simp only [Components.visit]
  | comment entry rest ih => simp only [Components.visit, ih]
  | element tag inner rest ihInner ihRest =>
    cases targets with
    | nil => simp only [Components.visit]
    | cons next targets => simp only [Components.visit, alike.assess, ihInner, ihRest]

/-- Every document has the same issues in the same order. -/
theorem issues (document : Document) : second.issues document = first.issues document := by
  simp only [Components.issues, alike.elements, alike.visit]

end Components.Alike
end KeyholeMarkup.Schema

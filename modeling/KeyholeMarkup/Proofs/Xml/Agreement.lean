import KeyholeMarkup.Proofs.Xml.Presentation
import Mathlib.Data.List.Forall2

/-! Equality and copies of elements, against the recursion over the tree. Elements are compared and
copied with the work still to be done in a list; the outcome is that of going down the tree child by
child. -/
namespace KeyholeMarkup.Xml

/-- Equal names, equal attributes in the same order, whatever their prefixes, and equal text. -/
structure Tag.Agrees (first second : Tag) : Prop where
  name : first.name = second.name
  attributes : List.Forall₂ (fun entry other => entry.name = other.name ∧ entry.value = other.value)
    first.attributes second.attributes
  text : first.text = second.text

/-- As many children, of the same kinds in the same places, which agree in turn. -/
def Content.Agrees : Content → Content → Prop
  | .empty, .empty => True
  | .comment entry rest, .comment entry' rest' => entry.text = entry'.text ∧ rest.Agrees rest'
  | .element tag inner rest, .element tag' inner' rest' =>
    tag.Agrees tag' ∧ inner.Agrees inner' ∧ rest.Agrees rest'
  | _, _ => False

def Element.Agrees (first second : Element) : Prop :=
  first.tag.Agrees second.tag ∧ first.content.Agrees second.content

def Node.Agrees : Node → Node → Prop
  | .comment entry, .comment entry' => entry.text = entry'.text
  | .element child, .element child' => child.Agrees child'
  | _, _ => False

theorem Content.agrees_iff_nodes {first second : Content} :
    first.Agrees second ↔ List.Forall₂ Node.Agrees first.nodes second.nodes := by
  induction first generalizing second with
  | empty => cases second <;> simp [Agrees, nodes]
  | comment entry rest ih => cases second <;> simp [Agrees, nodes, Node.Agrees, ih]
  | element tag inner rest _ ih =>
    cases second <;> simp [Agrees, nodes, Node.Agrees, Element.Agrees, ih, and_assoc]

theorem sameAttributes_iff_forall₂ {firsts seconds : List Attribute} :
    sameAttributes firsts seconds = true ↔
      List.Forall₂ (fun entry other => entry.name = other.name ∧ entry.value = other.value)
        firsts seconds := by
  induction firsts generalizing seconds with
  | nil => cases seconds <;> simp [sameAttributes]
  | cons first firsts ih => cases seconds <;> simp [sameAttributes, Attribute.same, ih]

theorem Tag.agrees_iff {first second : Tag} : first.Agrees second ↔ first.bare = second.bare := by
  rw [← same_iff, same, Bool.and_eq_true, Bool.and_eq_true, beq_iff_eq, beq_iff_eq,
    sameAttributes_iff_forall₂]
  constructor
  · intro agrees
    exact ⟨⟨agrees.name, agrees.attributes⟩, agrees.text⟩
  · rintro ⟨⟨name, attributes⟩, text⟩
    exact ⟨name, attributes, text⟩

theorem Comment.unplaced_eq_iff {first second : Comment} :
    first.unplaced = second.unplaced ↔ first.text = second.text := by
  rw [← same_iff, same, beq_iff_eq]

theorem Content.agrees_iff {first second : Content} :
    first.Agrees second ↔ first.bare = second.bare := by
  induction first generalizing second with
  | empty => cases second <;> simp [Agrees, bare]
  | comment entry rest ih => cases second <;> simp [Agrees, bare, Comment.unplaced_eq_iff, ih]
  | element tag inner rest ihInner ihRest =>
    cases second <;> simp [Agrees, bare, Tag.agrees_iff, ihInner, ihRest]

theorem Element.same_iff_agrees {first second : Element} :
    first.same second = true ↔ first.Agrees second := by
  rw [same_iff, Element.Agrees, Tag.agrees_iff, Content.agrees_iff, bare, bare, Element.mk.injEq]

/-- What is left of the content of an element is copied behind the children that it has so far, before
anything else goes on. -/
theorem copyAll_left (tag : Tag) (children : List Node) (left : Content) (parents : List Copying) :
    copyAll (⟨tag, children, left⟩ :: parents) =
      copyAll (⟨tag, left.nodes.reverse ++ children, .empty⟩ :: parents) := by
  induction left generalizing tag children parents with
  | empty => rfl
  | comment entry rest ih =>
    rw [copyAll, ih, Content.nodes, List.reverse_cons, List.append_assoc, List.singleton_append]
  | element childTag inner rest ihInner ihRest =>
    have done : Copying.close ⟨childTag, inner.nodes.reverse ++ [], .empty⟩ = ⟨childTag, inner⟩ := by
      simp [Copying.close]
    -- The child is copied to its end and joins its parent, which then goes on.
    rw [copyAll, ihInner, copyAll, done, ihRest, Content.nodes, List.reverse_cons,
      List.append_assoc, List.singleton_append]

/-- A copy is equal in everything, positions and prefixes among it. -/
theorem Element.copy_eq (element : Element) : element.copy = some element := by
  rw [copy, copyAll_left, copyAll]
  simp [Copying.close]

/-- Two elements are the same exactly if their names, their attributes in order and their texts are
equal and their children agree place by place, elements in the same way and comments by their texts.
So sameness is an equivalence. A copy is the element itself, with all that does not take part in
sameness. -/
theorem Element.same_and_copy :
    (∀ first second : Element, first.same second = true ↔ first.Agrees second) ∧
    (∀ first second : Element, first.Agrees second ↔
      first.name = second.name ∧
      List.Forall₂ (fun entry other => entry.name = other.name ∧ entry.value = other.value)
        first.tag.attributes second.tag.attributes ∧
      first.tag.text = second.tag.text ∧
      List.Forall₂ Node.Agrees first.content.nodes second.content.nodes) ∧
    (Equivalence fun first second : Element => first.same second = true) ∧
    ∀ element : Element, element.copy = some element := by
  refine ⟨fun _ _ => same_iff_agrees, fun first second => ?_, ?_, copy_eq⟩
  · rw [Element.Agrees, Content.agrees_iff_nodes]
    constructor
    · rintro ⟨tag, children⟩
      exact ⟨tag.name, tag.attributes, tag.text, children⟩
    · rintro ⟨name, attributes, text, children⟩
      exact ⟨⟨name, attributes, text⟩, children⟩
  · constructor
    · exact fun element => same_iff.mpr rfl
    · exact fun same => same_iff.mpr (same_iff.mp same).symm
    · exact fun same next => same_iff.mpr ((same_iff.mp same).trans (same_iff.mp next))

end KeyholeMarkup.Xml

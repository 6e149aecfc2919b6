import KeyholeMarkup.Proofs.Xml.Tree

/-! The elements of a document in the order in which they open, as a recursion over the tree. -/
namespace KeyholeMarkup.Xml

/-- The elements in a content, at any depth. -/
def Content.allElements : Content → List Element
  | .empty => []
  | .comment _ rest => rest.allElements
  | .element tag inner rest => ⟨tag, inner⟩ :: inner.allElements ++ rest.allElements

/-- An element and all that are inside it. -/
def Element.allElements (element : Element) : List Element := element :: element.content.allElements

def Event.opened? : Event → Option Element
  | .opened element => some element
  | _ => none

theorem Content.filterMap_events (content : Content) :
    content.events.filterMap Event.opened? = content.allElements := by
  induction content with
  | empty => rfl
  | comment entry rest ih => exact ih
  | element tag inner rest ihInner ihRest =>
    rw [events, allElements, List.filterMap_append, List.filterMap_cons, List.filterMap_cons, ihInner,
      ihRest]
    rfl

theorem filterMap_opened?_comments (comments : List Comment) :
    (comments.map Event.comment).filterMap Event.opened? = [] := by
  simp [List.filterMap_map, Event.opened?, Function.comp_def]

/-- The elements that open along a document are those of its tree. -/
theorem Document.filterMap_events (document : Document) :
    document.events.filterMap Event.opened? = document.root.allElements := by
  rw [events, List.filterMap_append, List.filterMap_append, filterMap_opened?_comments,
    filterMap_opened?_comments, List.nil_append, List.append_nil, Element.events,
    List.filterMap_append, List.filterMap_cons, Content.filterMap_events]
  exact List.append_nil _

theorem Content.mem_allNodes_iff {content : Content} {element : Element} :
    .element element ∈ content.allNodes ↔ element ∈ content.allElements := by
  induction content with
  | empty => simp [allNodes, allElements]
  | comment entry rest ih => simp [allNodes, allElements, ih]
  | element tag inner rest ihInner ihRest => simp [allNodes, allElements, ihInner, ihRest]

theorem Content.elements_subset (content : Content) : content.elements ⊆ content.allElements := by
  induction content with
  | empty => exact List.Subset.refl _
  | comment entry rest ih => exact ih
  | element tag inner rest _ ih =>
    exact List.cons_subset_cons _ (List.subset_append_of_subset_right _ ih)

/-- What is inside an element is inside all that it is in. -/
theorem Content.allElements_subset {content : Content} {element : Element}
    (inside : element ∈ content.allElements) : element.allElements ⊆ content.allElements := by
  induction content with
  | empty => cases inside
  | comment entry rest ih => exact ih inside
  | element tag inner rest ihInner ihRest =>
    rcases List.mem_append.mp inside with own | later
    · rcases List.mem_cons.mp own with rfl | below
      · exact List.subset_append_left _ _
      · have within : inner.allElements ⊆ ⟨tag, inner⟩ :: inner.allElements := List.subset_cons_self _ _
        exact List.subset_append_of_subset_left _ (List.Subset.trans (ihInner below) within)
    · exact List.subset_append_of_subset_right _ (ihRest later)

theorem Element.allElements_subset {outer element : Element} (inside : element ∈ outer.allElements) :
    element.allElements ⊆ outer.allElements := by
  rcases List.mem_cons.mp inside with rfl | below
  · exact List.Subset.refl _
  · exact List.subset_cons_of_subset _ (Content.allElements_subset below)

theorem Document.mem_allNodes {document : Document} {element : Element}
    (inside : element ∈ document.root.allElements) : .element element ∈ document.allNodes := by
  have root := Content.mem_allNodes_iff.mp document.root_mem_allNodes
  exact Content.mem_allNodes_iff.mpr (Content.allElements_subset root inside)

end KeyholeMarkup.Xml

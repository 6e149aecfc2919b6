import KeyholeMarkup.Xml.Walk

/-! The tags and comments of a tree in document order, and the walk as a recursion over the tree. -/
namespace KeyholeMarkup.Xml

def Content.isEmpty : Content → Bool
  | .empty => true
  | _ => false

def Content.tags : Content → List Tag
  | .empty => []
  | .comment _ rest => rest.tags
  | .element tag inner rest => tag :: inner.tags ++ rest.tags

def Element.tags (element : Element) : List Tag := element.tag :: element.content.tags

def Node.tags : Node → List Tag
  | .comment _ => []
  | .element child => child.tags

theorem Content.tags_ofNodes (nodes : List Node) :
    (Content.ofNodes nodes).tags = nodes.flatMap Node.tags := by
  induction nodes with
  | nil => rfl
  | cons node nodes ih =>
    rw [List.flatMap_cons, ← ih]
    cases node <;> rfl

/-- The comments in a content, at any depth. -/
def Content.allComments : Content → List Comment
  | .empty => []
  | .comment entry rest => entry :: rest.allComments
  | .element _ inner rest => inner.allComments ++ rest.allComments

def Document.allComments (document : Document) : List Comment :=
  document.leading ++ document.root.content.allComments ++ document.trailing

/-- The nodes in a content, at any depth. -/
def Content.allNodes : Content → List Node
  | .empty => []
  | .comment entry rest => .comment entry :: rest.allNodes
  | .element tag inner rest => .element ⟨tag, inner⟩ :: inner.allNodes ++ rest.allNodes

theorem Content.nodes_subset_allNodes (content : Content) : content.nodes ⊆ content.allNodes := by
  induction content with
  | empty => exact List.Subset.refl _
  | comment entry rest ih => exact List.cons_subset_cons _ ih
  | element tag inner rest _ ih =>
    exact List.cons_subset_cons _ (List.subset_append_of_subset_right _ ih)

/-- The root and the comments beside it. -/
def Document.content (document : Document) : Content :=
  .ofNodes (document.leading.map .comment ++ .element document.root ::
    document.trailing.map .comment)

def Document.allNodes (document : Document) : List Node := document.content.allNodes

theorem Document.root_mem_allNodes (document : Document) :
    Node.element document.root ∈ document.allNodes := by
  apply Content.nodes_subset_allNodes
  rw [Document.content, Content.nodes_ofNodes]
  exact List.mem_append_right _ List.mem_cons_self

theorem Content.ofNodes_append (first second : List Node) :
    ofNodes (first ++ second) = (ofNodes first).append (ofNodes second) := by
  rw [← ofNodes_nodes ((ofNodes first).append (ofNodes second)), nodes_append, nodes_ofNodes,
    nodes_ofNodes]

end KeyholeMarkup.Xml

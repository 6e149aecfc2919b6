import KeyholeMarkup.Proofs.Xml.Reread

/-! Documents apart from their presentation: without positions and, further, without prefixes and
declarations. Two documents are the same if nothing else tells them apart. -/
namespace KeyholeMarkup.Xml

def Comment.unplaced (entry : Comment) : Comment := { entry with span := none }

def Tag.unplaced (tag : Tag) : Tag := { tag with span := none }

/-- A content without positions. -/
def Content.unplaced : Content → Content
  | .empty => .empty
  | .comment entry rest => .comment entry.unplaced rest.unplaced
  | .element tag inner rest => .element tag.unplaced inner.unplaced rest.unplaced

def Element.unplaced (element : Element) : Element := ⟨element.tag.unplaced, element.content.unplaced⟩

def Attribute.bare (entry : Attribute) : Attribute := { entry with nsPrefix := none }

def Tag.bare (tag : Tag) : Tag :=
  ⟨tag.name, none, [], tag.attributes.map Attribute.bare, tag.text, none⟩

/-- A content without positions, prefixes and declarations. -/
def Content.bare : Content → Content
  | .empty => .empty
  | .comment entry rest => .comment entry.unplaced rest.bare
  | .element tag inner rest => .element tag.bare inner.bare rest.bare

def Element.bare (element : Element) : Element := ⟨element.tag.bare, element.content.bare⟩

def Document.bare (document : Document) : Document :=
  ⟨document.leading.map Comment.unplaced, document.root.bare,
    document.trailing.map Comment.unplaced⟩

theorem Attribute.same_iff {first second : Attribute} :
    first.same second = true ↔ first.bare = second.bare := by
  simp [same, bare]

theorem sameAttributes_iff {firsts seconds : List Attribute} :
    sameAttributes firsts seconds = true ↔
      firsts.map Attribute.bare = seconds.map Attribute.bare := by
  induction firsts generalizing seconds with
  | nil => cases seconds <;> simp [sameAttributes]
  | cons first firsts ih =>
    cases seconds with
    | nil => simp [sameAttributes]
    | cons second seconds => simp [sameAttributes, ih, Attribute.same_iff]

theorem Tag.same_iff {first second : Tag} : first.same second = true ↔ first.bare = second.bare := by
  simp [same, bare, sameAttributes_iff, and_assoc]

theorem Comment.same_iff {first second : Comment} :
    first.same second = true ↔ first.unplaced = second.unplaced := by
  simp [same, unplaced]

theorem sameComments_iff {firsts seconds : List Comment} :
    sameComments firsts seconds = true ↔
      firsts.map Comment.unplaced = seconds.map Comment.unplaced := by
  induction firsts generalizing seconds with
  | nil => cases seconds <;> simp [sameComments]
  | cons first firsts ih =>
    cases seconds with
    | nil => simp [sameComments]
    | cons second seconds => simp [sameComments, ih, Comment.same_iff]

def Node.bare : Node → Node
  | .comment entry => .comment entry.unplaced
  | .element child => .element child.bare

theorem Content.nodes_bare (content : Content) : content.bare.nodes = content.nodes.map Node.bare := by
  induction content with
  | empty => rfl
  | comment entry rest ih => simp only [bare, nodes, ih, List.map_cons, Node.bare]
  | element tag inner rest _ ih =>
    simp only [bare, nodes, ih, List.map_cons, Node.bare, Element.bare]

theorem Content.bare_eq_iff {first second : Content} :
    first.bare = second.bare ↔ first.nodes.map Node.bare = second.nodes.map Node.bare := by
  rw [← nodes_bare, ← nodes_bare]
  refine ⟨congrArg nodes, fun same => ?_⟩
  rw [← ofNodes_nodes first.bare, same, ofNodes_nodes]

/-- Children are compared to the end exactly if no place tells them apart but for the elements that
are still to be compared. -/
theorem foldlM_compareNodes (pairs : List (Node × Node)) (pending : List (Element × Element)) :
    (∃ left, pairs.foldlM compareNodes pending = some left ∧
      ∀ pair ∈ left, pair.1.bare = pair.2.bare) ↔
        (∀ pair ∈ pairs, pair.1.bare = pair.2.bare) ∧
          ∀ pair ∈ pending, pair.1.bare = pair.2.bare := by
  induction pairs generalizing pending with
  | nil => simp
  | cons pair pairs ih =>
    obtain ⟨node, other⟩ := pair
    rw [List.foldlM_cons, List.forall_mem_cons]
    cases node with
    | comment entry =>
      cases other with
      | comment entry' =>
        by_cases same : entry.same entry' = true
        · have bare := Comment.same_iff.mp same
          simpa [compareNodes, same, Node.bare, bare] using ih pending
        · have bare : entry.unplaced ≠ entry'.unplaced := fun equal => same (Comment.same_iff.mpr equal)
          simp [compareNodes, same, Node.bare, bare]
      | element child' => simp [compareNodes, Node.bare]
    | element child =>
      cases other with
      | comment entry' => simp [compareNodes, Node.bare]
      | element child' =>
        have taken : compareNodes pending (.element child, .element child') =
            some ((child, child') :: pending) := rfl
        have same : (Node.element child).bare = (Node.element child').bare ↔
            child.bare = child'.bare := by
          rw [Node.bare, Node.bare, Node.element.injEq]
        rw [taken, Option.bind_eq_bind, Option.bind_some, ih, List.forall_mem_cons, same,
          and_left_comm, and_assoc]

theorem forall_mem_zip_bare {nodes others : List Node} :
    (nodes.length = others.length ∧ ∀ pair ∈ nodes.zip others, pair.1.bare = pair.2.bare) ↔
      nodes.map Node.bare = others.map Node.bare := by
  induction nodes generalizing others with
  | nil => cases others <;> simp
  | cons node nodes ih =>
    cases others with
    | nil => simp
    | cons other others =>
      rw [List.map_cons, List.map_cons, List.cons.injEq, ← ih]
      simp [and_left_comm]

theorem agree_iff (pairs : List (Element × Element)) :
    agree pairs = true ↔ ∀ pair ∈ pairs, pair.1.bare = pair.2.bare := by
  have whole (first second : Element) : first.bare = second.bare ↔
      (first.tag.same second.tag = true ∧
        first.content.nodes.length = second.content.nodes.length) ∧
      ∀ pair ∈ first.content.nodes.zip second.content.nodes, pair.1.bare = pair.2.bare := by
    rw [and_assoc, forall_mem_zip_bare, Tag.same_iff, ← Content.bare_eq_iff, Element.bare,
      Element.bare, Element.mk.injEq]
  fun_induction agree pairs with
  | case1 => simp
  | case2 first second pending alike left compared ih =>
    rw [Bool.and_eq_true, beq_iff_eq] at alike
    have inside := foldlM_compareNodes (first.content.nodes.zip second.content.nodes) pending
    refine ih.trans ?_
    rw [List.forall_mem_cons, whole, and_iff_right alike, ← inside, compared]
    simp
  | case3 first second pending alike differ =>
    have inside := foldlM_compareNodes (first.content.nodes.zip second.content.nodes) pending
    rw [List.forall_mem_cons, whole, and_assoc, ← inside, differ]
    simp
  | case4 first second pending differ =>
    rw [Bool.and_eq_true, beq_iff_eq] at differ
    refine iff_of_false Bool.false_ne_true fun same => differ ?_
    exact ((whole first second).mp (same _ List.mem_cons_self)).1

theorem Element.same_iff {first second : Element} :
    first.same second = true ↔ first.bare = second.bare := by
  simp [same, agree_iff]

theorem Document.same_iff {first second : Document} :
    first.same second = true ↔ first.bare = second.bare := by
  simp [same, bare, sameComments_iff, Element.same_iff, and_assoc]

theorem Tag.bare_reread (tag : Tag) : tag.reread.bare = tag.bare.reread := by
  simp [bare, reread, Function.comp_def, Attribute.bare, Attribute.reread]

theorem Content.bare_reread (content : Content) : content.reread.bare = content.bare.reread := by
  induction content with
  | empty => rfl
  | comment entry rest ih => simp only [reread, bare, ih]
  | element tag inner rest ihInner ihRest => simp only [reread, bare, ihInner, ihRest, Tag.bare_reread]

theorem Content.bare_unplaced (content : Content) : content.unplaced.bare = content.bare := by
  induction content with
  | empty => rfl
  | comment entry rest ih => simp only [unplaced, bare, ih]; rfl
  | element tag inner rest ihInner ihRest => simp only [unplaced, bare, ihInner, ihRest]; rfl

theorem Tag.stable_bare {tag : Tag} : tag.bare.Stable ↔ tag.Stable := by
  constructor
  · rintro ⟨text, values⟩
    exact ⟨text, by simpa [bare, Attribute.bare] using values⟩
  · rintro ⟨text, values⟩
    exact ⟨text, by simpa [bare, Attribute.bare] using values⟩

theorem Content.tags_bare (content : Content) : content.bare.tags = content.tags.map Tag.bare := by
  induction content with
  | empty => rfl
  | comment entry rest ih => exact ih
  | element tag inner rest ihInner ihRest => simp [bare, tags, ihInner, ihRest]

theorem Content.stable_bare {content : Content} :
    (∀ tag ∈ content.bare.tags, tag.Stable) ↔ ∀ tag ∈ content.tags, tag.Stable := by
  simp [tags_bare, Tag.stable_bare]

theorem Document.bare_reread (document : Document) : document.reread.bare = document.bare.reread := by
  simp only [bare, reread, Element.bare, Element.reread, Content.bare_reread, Tag.bare_reread]

theorem Document.stable_bare {document : Document} : document.bare.Stable ↔ document.Stable := by
  simp only [Stable, bare, Element.bare, Element.tags, List.forall_mem_cons, Tag.stable_bare,
    Content.stable_bare]

/-- A document is the same as what is read of it if and only if reading leaves it as it is. -/
theorem Document.same_reread_iff {document read : Document}
    (reread : document.reread.same read = true) : document.same read = true ↔ document.Stable := by
  rw [same_iff, bare_reread] at reread
  rw [same_iff, ← reread, ← stable_bare, ← reread_eq_self_iff]
  exact eq_comm

end KeyholeMarkup.Xml

import KeyholeMarkup.Source.Span
import KeyholeMarkup.Xml.Name

/-! Documents: a root element and the comments beside it. The children of an element, comments and
elements in order, form its content; text is kept only before the first child. Prefixes, namespace
declarations and positions in the source are presentation and do not take part in `same`. -/
namespace KeyholeMarkup.Xml
open KeyholeMarkup.Source

/-- A binding of a prefix, or of the default namespace without one. -/
structure Declaration where
  nsPrefix : Option String
  uri : String
deriving DecidableEq, Repr

structure Attribute where
  name : Name
  nsPrefix : Option String
  value : String
deriving DecidableEq, Repr

structure Comment where
  text : String
  span : Option Span
deriving DecidableEq, Repr

/-- All of an element but its content. -/
structure Tag where
  name : Name
  nsPrefix : Option String
  declarations : List Declaration
  attributes : List Attribute
  text : Option String
  span : Option Span
deriving DecidableEq, Repr

inductive Content
  | empty
  | comment (comment : Comment) (rest : Content)
  | element (tag : Tag) (inner : Content) (rest : Content)
deriving DecidableEq, Repr

structure Element where
  tag : Tag
  content : Content
deriving DecidableEq, Repr

structure Document where
  leading : List Comment
  root : Element
  trailing : List Comment
deriving DecidableEq, Repr

inductive Node
  | comment (comment : Comment)
  | element (element : Element)
deriving DecidableEq, Repr

namespace Content

def cons : Node → Content → Content
  | .comment c, rest => .comment c rest
  | .element e, rest => .element e.tag e.content rest

def ofNodes (nodes : List Node) : Content := nodes.foldr cons .empty

def nodes : Content → List Node
  | .empty => []
  | .comment c rest => .comment c :: rest.nodes
  | .element tag inner rest => .element ⟨tag, inner⟩ :: rest.nodes

def append : Content → Content → Content
  | .empty, other => other
  | .comment c rest, other => .comment c (rest.append other)
  | .element tag inner rest, other => .element tag inner (rest.append other)

def elements : Content → List Element
  | .empty => []
  | .comment _ rest => rest.elements
  | .element tag inner rest => ⟨tag, inner⟩ :: rest.elements

def comments : Content → List Comment
  | .empty => []
  | .comment c rest => c :: rest.comments
  | .element _ _ rest => rest.comments

/-- The number of comments and elements at any depth. -/
def size : Content → Nat
  | .empty => 0
  | .comment _ rest => rest.size + 1
  | .element _ inner rest => inner.size + rest.size + 1

/-- A bound on the steps through some contents: two for each node and one to end each content. -/
def totalSteps : List Content → Nat
  | [] => 0
  | content :: rest => 2 * content.size + 1 + totalSteps rest

@[simp] theorem nodes_ofNodes (nodes : List Node) : (ofNodes nodes).nodes = nodes := by
  induction nodes with
  | nil => rfl
  | cons node nodes ih => cases node <;> simp_all [ofNodes, cons, Content.nodes]

@[simp] theorem ofNodes_nodes (content : Content) : ofNodes content.nodes = content := by
  induction content with
  | empty => rfl
  | comment c rest ih => simpa [ofNodes, cons, nodes] using ih
  | element tag inner rest _ ih => simpa [ofNodes, cons, nodes] using ih

@[simp] theorem nodes_append (first second : Content) :
    (first.append second).nodes = first.nodes ++ second.nodes := by
  induction first with
  | empty => rfl
  | comment c rest ih => simp [append, nodes, ih]
  | element tag inner rest _ ih => simp [append, nodes, ih]

end Content

def Comment.same (first second : Comment) : Bool := first.text == second.text

def Attribute.same (first second : Attribute) : Bool :=
  first.name == second.name && first.value == second.value

def sameAttributes : List Attribute → List Attribute → Bool
  | [], [] => true
  | first :: firsts, second :: seconds => first.same second && sameAttributes firsts seconds
  | _, _ => false

/-- Agreement of two elements apart from their contents. -/
def Tag.same (first second : Tag) : Bool :=
  first.name == second.name && sameAttributes first.attributes second.attributes &&
    first.text == second.text

/-- Compares two children in the same place: comments at once, while elements join the pairs that are
still to be compared. -/
def compareNodes (pending : List (Element × Element)) : Node × Node → Option (List (Element × Element))
  | (.element first, .element second) => some ((first, second) :: pending)
  | (.comment first, .comment second) => if first.same second then some pending else none
  | _ => none

/-- The number of nodes in the first elements of some pairs, at any depth. -/
def pendingSize (pending : List (Element × Element)) : Nat :=
  pending.foldr (fun pair size => pair.1.content.size + 1 + size) 0

theorem pendingSize_compareNodes {nodes : List Node} {others : List Node}
    {pending pending' : List (Element × Element)}
    (compared : (nodes.zip others).foldlM compareNodes pending = some pending') :
    pendingSize pending' ≤ (Content.ofNodes nodes).size + pendingSize pending := by
  induction nodes generalizing others pending with
  | nil =>
    cases compared
    exact Nat.le_add_left _ _
  | cons node nodes ih =>
    cases others with
    | nil =>
      cases compared
      exact Nat.le_add_left _ _
    | cons other others =>
      rw [List.zip_cons_cons, List.foldlM_cons] at compared
      obtain ⟨between, first, rest⟩ := Option.bind_eq_some_iff.mp compared
      have bounded := ih rest
      have whole : Content.ofNodes (node :: nodes) = Content.cons node (.ofNodes nodes) := rfl
      cases node with
      | comment entry =>
        cases other with
        | element _ => cases first
        | comment entry' =>
          simp only [compareNodes] at first
          split at first
          · cases first
            simp only [whole, Content.cons, Content.size]
            omega
          · cases first
      | element child =>
        cases other with
        | comment _ => cases first
        | element child' =>
          cases first
          simp only [pendingSize, List.foldr_cons, whole, Content.cons, Content.size] at bounded ⊢
          omega

/-- Agreement of pairs of elements, with the pairs still to be compared kept in a list. -/
def agree : List (Element × Element) → Bool
  | [] => true
  | (first, second) :: pending =>
    if first.tag.same second.tag && first.content.nodes.length == second.content.nodes.length then
      match _h : (first.content.nodes.zip second.content.nodes).foldlM compareNodes pending with
      | some pending => agree pending
      | none => false
    else false
termination_by pending => pendingSize pending
decreasing_by
  have bounded := pendingSize_compareNodes _h
  rw [Content.ofNodes_nodes] at bounded
  simp only [pendingSize, List.foldr_cons] at bounded ⊢
  omega

/-- An element that is being copied: its tag, its children so far, last one first, and what is left of
its content. -/
structure Copying where
  tag : Tag
  children : List Node
  left : Content

def Copying.close (copying : Copying) : Element :=
  ⟨copying.tag, Content.ofNodes copying.children.reverse⟩

/-- Goes on copying the first of some elements, each of which is a child of the next one. -/
def copyAll : List Copying → Option Element
  | [] => none
  | ⟨tag, children, .comment entry rest⟩ :: parents =>
    copyAll (⟨tag, .comment entry :: children, rest⟩ :: parents)
  | ⟨tag, children, .element childTag inner rest⟩ :: parents =>
    copyAll (⟨childTag, [], inner⟩ :: ⟨tag, children, rest⟩ :: parents)
  | [⟨tag, children, .empty⟩] => some (Copying.close ⟨tag, children, .empty⟩)
  | ⟨tag, children, .empty⟩ :: parent :: parents =>
    let done := Copying.close ⟨tag, children, .empty⟩
    copyAll ({ parent with children := .element done :: parent.children } :: parents)
termination_by copies => Content.totalSteps (copies.map (·.left))
decreasing_by all_goals simp [Content.size, Content.totalSteps]; try omega

/-- The value of the first attribute with a local name, whatever its namespace. -/
def Tag.attribute? (tag : Tag) (localName : String) : Option String :=
  (tag.attributes.find? (·.name.localName == localName)).map (·.value)

namespace Element

def same (first second : Element) : Bool := agree [(first, second)]

def copy (element : Element) : Option Element := copyAll [⟨element.tag, [], element.content⟩]

def name (element : Element) : Name := element.tag.name

/-- The text before the first child. Empty text counts as none. -/
def text (element : Element) : Option String := element.tag.text.filter (· ≠ "")

def attribute? (element : Element) (localName : String) : Option String :=
  element.tag.attribute? localName

def attributeNamed? (element : Element) (name : Name) : Option String :=
  (element.tag.attributes.find? (·.name == name)).map (·.value)

def children (element : Element) (localName : String) : List Element :=
  element.content.elements.filter (·.name.localName == localName)

def child? (element : Element) (localName : String) : Option Element :=
  element.content.elements.find? (·.name.localName == localName)

def isLeaf (element : Element) : Bool := element.content matches .empty

/-- The element reached by taking the child element at each position of the path in turn. -/
def descend? (element : Element) : List Nat → Option Element
  | [] => some element
  | position :: path => element.content.elements[position]?.bind (·.descend? path)

end Element

def sameComments : List Comment → List Comment → Bool
  | [], [] => true
  | first :: firsts, second :: seconds => first.same second && sameComments firsts seconds
  | _, _ => false

def Document.same (first second : Document) : Bool :=
  sameComments first.leading second.leading && first.root.same second.root &&
    sameComments first.trailing second.trailing

end KeyholeMarkup.Xml

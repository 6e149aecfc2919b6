import KeyholeMarkup.Proofs.Schema.Acceptance
import KeyholeMarkup.Proofs.Schema.FirstReports
import KeyholeMarkup.Proofs.Xml.Spans

/-! Validation as a sequence of visits. An element is visited with what it is checked against, and
what is reported of it depends on that and on its children's names alone. The issues with a document
are those of its visits in order, each missing component being reported once. -/
namespace KeyholeMarkup.Schema
open KeyholeMarkup.Source KeyholeMarkup.Xml

/-- Violations that are reported at a child of the element that is checked. -/
def Violation.ofChild : Violation → Bool
  | .childInTextOnly .. | .unexpectedChild .. => true
  | _ => false

/-- An element that validation comes to, with what it is checked against and its path. -/
structure Visit where
  target : Target
  element : Element
  path : String

namespace Visit

/-- The declaration that the element is checked against, if there is one. -/
def declaration? (components : Components) (visit : Visit) : Option ElementDeclaration :=
  match visit.target with
  | .declared declaration => some declaration
  | .lax => components.elements.find? visit.element.name
  | .skip => none

/-- What is reported when the element itself is checked. -/
def issues (components : Components) (visit : Visit) : List Issue :=
  (components.assess visit.target visit.element visit.path).1

/-- The children with their paths. -/
def children (visit : Visit) : List (Element × String) :=
  visit.element.content.elements.zip
    (childPaths visit.path (visit.element.content.elements.map (·.name)))

/-- What the children are checked against, and their paths. -/
def inside (components : Components) (visit : Visit) : List (Target × String) :=
  (components.assess visit.target visit.element visit.path).2.zip
    (childPaths visit.path (visit.element.content.elements.map (·.name)))

end Visit

namespace Components

/-- The visits in a content whose elements have these targets and paths. -/
def visits (components : Components) : List (Target × String) → Content → List Visit
  | targets, .comment _ rest => components.visits targets rest
  | (target, path) :: targets, .element tag inner rest =>
    let first : Visit := ⟨target, ⟨tag, inner⟩, path⟩
    first :: (components.visits (first.inside components) inner ++ components.visits targets rest)
  | [], .element .. | _, .empty => []

/-- The visits of a validation, from the root if it has a global declaration. -/
def visitsOf (components : Components) (document : Document) : List Visit :=
  match components.elements.find? document.root.name with
  | .none => []
  | some declaration =>
    components.visits [(.declared declaration, "/" ++ document.root.name.localName)]
      (.element document.root.tag document.root.content .empty)

/-- What is reported of the children by the content of the type. -/
def childIssues (components : Components) (type : EffectiveType) (visit : Visit) : List Issue :=
  match type.content with
  | .any => []
  | .textOnly => visit.element.content.elements.head?.toList.map fun child : Element =>
    ⟨.childInTextOnly visit.element.name.localName child.name.localName, visit.path, child.tag.span⟩
  | .particles particles => visit.children.flatMap fun child =>
    (components.assessChild particles visit.element visit.path child.1 child.2).1

end Components

variable {components : Components}

/-- The issues of a content are those of its visits. -/
theorem visit_eq_flatMap (targets : List (Target × String)) (content : Content) :
    components.visit targets content =
      (components.visits targets content).flatMap (·.issues components) := by
  induction content generalizing targets with
  | empty => simp [Components.visit, Components.visits]
  | comment _ rest ih => exact ih targets
  | element tag inner rest ihInner ihRest =>
    cases targets with
    | nil => rfl
    | cons first targets =>
      obtain ⟨target, path⟩ := first
      have step : components.visit ((target, path) :: targets) (.element tag inner rest) =
          Visit.issues components ⟨target, ⟨tag, inner⟩, path⟩ ++
            components.visit (Visit.inside components ⟨target, ⟨tag, inner⟩, path⟩) inner ++
            components.visit targets rest := rfl
      rw [step, ihInner, ihRest, Components.visits, List.flatMap_cons, List.flatMap_append,
        List.append_assoc]

theorem issues_eq (document : Document) {declaration : ElementDeclaration}
    (found : components.elements.find? document.root.name = some declaration) :
    components.issues document = Components.firstReports []
      ((components.visitsOf document).flatMap (·.issues components)) := by
  simp only [Components.issues, Components.visitsOf, found, visit_eq_flatMap]

namespace Visit
variable {visit : Visit} {declaration : ElementDeclaration} {issue : Issue}

theorem map_fst_children (visit : Visit) :
    visit.children.map Prod.fst = visit.element.content.elements := by
  apply List.map_fst_zip
  rw [length_childPaths, List.length_map]

theorem issues_undeclared (undeclared : visit.declaration? components = none) :
    visit.issues components = [] := by
  obtain ⟨target, element, path⟩ := visit
  cases target with
  | declared declaration => simp [declaration?] at undeclared
  | skip => rfl
  | lax =>
    have missing : components.elements.find? element.name = none := undeclared
    simp only [issues, Components.assess, missing]

theorem assess_declared (declared : visit.declaration? components = some declaration) :
    components.assess visit.target visit.element visit.path =
      components.assessDeclared declaration visit.element visit.path := by
  obtain ⟨target, element, path⟩ := visit
  cases target with
  | declared other =>
    obtain rfl := Option.some.inj declared
    rfl
  | skip => simp [declaration?] at declared
  | lax =>
    have found : components.elements.find? element.name = some declaration := declared
    simp only [Components.assess, found]

theorem issues_abstract (declared : visit.declaration? components = some declaration)
    (isAbstract : declaration.isAbstract = true) : visit.issues components =
      [⟨.abstractElement visit.element.name.localName, visit.path, visit.element.tag.span⟩] := by
  rw [issues, assess_declared declared, Components.assessDeclared, if_pos isAbstract]

/-- Of an element that is declared and not abstract, its type is reported first, as far as it is
missing, then its attributes and then its children. -/
theorem issues_concrete (declared : visit.declaration? components = some declaration)
    (concrete : declaration.isAbstract = false) : visit.issues components =
      (components.typeOf referenceDepth declaration).missing.map
          (Components.missingIssue visit.path) ++
        Components.attributeIssues (foundType components declaration) visit.element visit.path ++
        components.childIssues (foundType components declaration) visit := by
  rw [issues, assess_declared declared, Components.assessDeclared,
    if_neg (Bool.eq_false_iff.mp concrete), foundType, Components.childIssues]
  cases content : (components.typeOf referenceDepth declaration).result.content with
  | any => simp only [content, List.append_nil]
  | textOnly => simp only [content]
  | particles particles => simp only [content, List.flatMap_map, children]

theorem inside_abstract (declared : visit.declaration? components = some declaration)
    (isAbstract : declaration.isAbstract = true) : visit.inside components = [] := by
  rw [inside, assess_declared declared, Components.assessDeclared, if_pos isAbstract]
  rfl

theorem inside_textOnly (declared : visit.declaration? components = some declaration)
    (content : (foundType components declaration).content = .textOnly) :
    visit.inside components = [] := by
  rw [foundType] at content
  rw [inside, assess_declared declared, Components.assessDeclared]
  split
  · rfl
  · simp only [content]
    rfl

/-- What can be reported when an element is checked: a missing component, something about the element
itself, or a child that it must not have. -/
inductive Raises (visit : Visit) : Issue → Prop
  | missing (missing : Missing) : Raises visit (Components.missingIssue visit.path missing)
  | own {violation : Violation} : violation.isUnresolved = false → violation.ofChild = false →
    Raises visit ⟨violation, visit.path, visit.element.tag.span⟩
  | inTextOnly {child : Element} : child ∈ visit.element.content.elements →
    Raises visit ⟨.childInTextOnly visit.element.name.localName child.name.localName, visit.path,
      child.tag.span⟩
  | refused {child : Element} {childPath : String} : (child, childPath) ∈ visit.children →
    Raises visit ⟨.unexpectedChild child.name.localName visit.element.name.localName, childPath,
      child.tag.span⟩

theorem own_of_mem_attributeIssues {type : EffectiveType}
    (member : issue ∈ Components.attributeIssues type visit.element visit.path) :
    issue.violation.isUnresolved = false ∧ issue.violation.ofChild = false ∧
      issue.path = visit.path ∧ issue.location = visit.element.tag.span := by
  unfold Components.attributeIssues at member
  split at member
  · simp at member
  · rcases List.mem_append.mp member with missing | undeclared
    · obtain ⟨entry, -, rfl⟩ := List.mem_map.mp missing
      exact ⟨rfl, rfl, rfl, rfl⟩
    · split at undeclared
      · simp at undeclared
      · obtain ⟨entry, -, rfl⟩ := List.mem_map.mp undeclared
        exact ⟨rfl, rfl, rfl, rfl⟩

/-- Of a child that is not admitted either a component is missing that its admission depends on, or
it must not be there. -/
theorem eq_of_mem_assessChild {particles : List Particle} {child : Element × String}
    (member : issue ∈
      (components.assessChild particles visit.element visit.path child.1 child.2).1) :
    (∃ missing, issue = Components.missingIssue visit.path missing) ∨
      issue = ⟨.unexpectedChild child.1.name.localName visit.element.name.localName, child.2,
        child.1.tag.span⟩ := by
  unfold Components.assessChild at member
  split at member <;> simp only [List.not_mem_nil, List.mem_singleton] at member
  · exact .inl ⟨_, member⟩
  · exact .inr member

theorem raises_of_mem_childIssues {type : EffectiveType}
    (member : issue ∈ components.childIssues type visit) : visit.Raises issue := by
  unfold Components.childIssues at member
  split at member
  · simp at member
  · obtain ⟨child, held, rfl⟩ := List.mem_map.mp member
    exact .inTextOnly (List.mem_of_mem_head? (Option.mem_toList.mp held))
  · obtain ⟨child, held, inner⟩ := List.mem_flatMap.mp member
    rcases eq_of_mem_assessChild inner with ⟨component, rfl⟩ | rfl
    · exact .missing component
    · exact .refused held

theorem raises_of_mem (member : issue ∈ visit.issues components) : visit.Raises issue := by
  cases declared : visit.declaration? components with
  | none => simp [issues_undeclared declared] at member
  | some declaration =>
    cases concrete : declaration.isAbstract with
    | true =>
      rw [issues_abstract declared concrete, List.mem_singleton] at member
      subst member
      exact .own rfl rfl
    | false =>
      rw [issues_concrete declared concrete, List.mem_append, List.mem_append] at member
      rcases member with (missing | own) | child
      · obtain ⟨component, -, rfl⟩ := List.mem_map.mp missing
        exact .missing component
      · obtain ⟨violation, path, location⟩ := issue
        obtain ⟨resolved, ownPlace, rfl, rfl⟩ := own_of_mem_attributeIssues own
        exact .own resolved ownPlace
      · exact raises_of_mem_childIssues child

/-- Missing components are reported without a place. -/
theorem Raises.location_eq_none (raises : visit.Raises issue)
    (unresolved : issue.violation.isUnresolved = true) : issue.location = none := by
  cases raises with
  | missing missing => rfl
  | own resolved _ => exact absurd (resolved.symm.trans unresolved) (by simp)
  | inTextOnly _ => simp [Violation.isUnresolved] at unresolved
  | refused _ => simp [Violation.isUnresolved] at unresolved

end Visit

section Positions
variable {file lower upper start stop : Nat} {text : List Char}

/-- An element that takes up the bytes between two offsets, with its content strictly inside. -/
structure Stands (file : Nat) (text : List Char) (start stop : Nat) (element : Element) : Prop where
  span : element.tag.span = some ⟨file, start, stop⟩
  content : ∃ first last, start < first ∧ last < stop ∧
    element.content.Placed file text first last

theorem Stands.lt {element : Element} (stands : Stands file text start stop element) :
    start < stop := by
  obtain ⟨first, last, opened, closed, inner⟩ := stands.content
  have inside := inner.le
  omega

theorem Stands.unique {start' stop' : Nat} {element : Element}
    (stands : Stands file text start stop element) (stands' : Stands file text start' stop' element) :
    start = start' ∧ stop = stop' := by
  have same := Option.some.inj (stands.span.symm.trans stands'.span)
  exact ⟨congrArg Span.start same, congrArg Span.stop same⟩

/-- An element that ends before another one begins. -/
def Precedes (file : Nat) (text : List Char) (earlier later : Element) : Prop :=
  ∃ start stop start' stop', Stands file text start stop earlier ∧
    Stands file text start' stop' later ∧ stop ≤ start'

/-- An element that another one is in, or that is this one. -/
def Encloses (file : Nat) (text : List Char) (outer inner : Element) : Prop :=
  ∃ start stop start' stop', Stands file text start stop outer ∧
    Stands file text start' stop' inner ∧ start ≤ start' ∧ stop' ≤ stop

/-- The elements of a content stand within its bounds, one behind the other. -/
theorem stands_elements {content : Content} (placed : content.Placed file text lower upper) :
    (∀ child ∈ content.elements, ∃ start stop, Stands file text start stop child ∧
      lower ≤ start ∧ stop ≤ upper) ∧
    content.elements.Pairwise (Precedes file text) := by
  induction placed with
  | empty _ => exact ⟨by simp [Content.elements], .nil⟩
  | comment behind _ written _ ih =>
    have room := written.room
    refine ⟨fun child member => ?_, ih.2⟩
    obtain ⟨start, stop, stands, after, before⟩ := ih.1 child member
    exact ⟨start, stop, stands, by omega, before⟩
  | @element lower upper start first last stop tag inner rest behind opened closed span written
      within others _ ih =>
    have stands : Stands file text start stop ⟨tag, inner⟩ :=
      ⟨span, first, last, opened, closed, within⟩
    have extent := stands.lt
    have room := others.le
    refine ⟨List.forall_mem_cons.mpr ⟨⟨start, stop, stands, behind, room⟩, fun child member => ?_⟩,
      List.pairwise_cons.mpr ⟨fun child member => ?_, ih.2⟩⟩
    · obtain ⟨start', stop', stands', after, before⟩ := ih.1 child member
      exact ⟨start', stop', stands', by omega, before⟩
    · obtain ⟨start', stop', stands', after, -⟩ := ih.1 child member
      exact ⟨start, stop, start', stop', stands, stands', after⟩

/-- The children of an element come one behind the other. -/
theorem Visit.pairwise_children {visit : Visit} (stands : Stands file text start stop visit.element) :
    visit.children.Pairwise fun earlier later => Precedes file text earlier.1 later.1 := by
  obtain ⟨first, last, -, -, inner⟩ := stands.content
  rw [← List.pairwise_map (f := Prod.fst), visit.map_fst_children]
  exact (stands_elements inner).2

/-- What is visited in a content stands within its bounds. -/
theorem stands_of_mem_visits {content : Content} (placed : content.Placed file text lower upper)
    {targets : List (Target × String)} {visit : Visit}
    (visited : visit ∈ components.visits targets content) :
    ∃ start stop, Stands file text start stop visit.element ∧ lower ≤ start ∧ stop ≤ upper := by
  induction placed generalizing targets with
  | empty _ => simp [Components.visits] at visited
  | comment behind _ written _ ih =>
    have room := written.room
    obtain ⟨start, stop, stands, after, before⟩ := ih visited
    exact ⟨start, stop, stands, by omega, before⟩
  | @element lower upper start first last stop tag inner rest behind opened closed span written
      within others ihInner ihRest =>
    have stands : Stands file text start stop ⟨tag, inner⟩ :=
      ⟨span, first, last, opened, closed, within⟩
    have extent := stands.lt
    have room := others.le
    cases targets with
    | nil => simp [Components.visits] at visited
    | cons target targets =>
      rcases List.mem_cons.mp visited with rfl | visited
      · exact ⟨start, stop, stands, behind, room⟩
      rcases List.mem_append.mp visited with inside | later
      · obtain ⟨start', stop', stands', after, before⟩ := ihInner inside
        exact ⟨start', stop', stands', by omega, by omega⟩
      · obtain ⟨start', stop', stands', after, before⟩ := ihRest later
        exact ⟨start', stop', stands', by omega, before⟩

/-- An issue is located where its element begins or, if it is about a child, behind that and before
the end of the element. -/
theorem Visit.Raises.start_eq {visit : Visit} {issue : Issue} (raises : visit.Raises issue)
    (stands : Stands file text start stop visit.element) {span : Span}
    (located : issue.location = some span) :
    if issue.violation.ofChild then start < span.start ∧ span.start < stop else span.start = start := by
  obtain ⟨first, last, opened, closed, inner⟩ := stands.content
  have child {held : Element} (member : held ∈ visit.element.content.elements)
      (located : held.tag.span = some span) : start < span.start ∧ span.start < stop := by
    obtain ⟨start', stop', stands', after, before⟩ := (stands_elements inner).1 held member
    have extent := stands'.lt
    obtain rfl := Option.some.inj (stands'.span.symm.trans located)
    dsimp only
    omega
  cases raises with
  | missing missing => simp [Components.missingIssue] at located
  | @own violation resolved own =>
    obtain rfl := Option.some.inj (stands.span.symm.trans located)
    simp only [own, Bool.false_eq_true, if_false]
  | inTextOnly member => exact child member located
  | refused member => exact child (List.of_mem_zip member).1 located

/-- The issues of a content are located within its bounds. -/
theorem between_of_mem_visits {content : Content} (placed : content.Placed file text lower upper)
    {targets : List (Target × String)} {visit : Visit}
    (visited : visit ∈ components.visits targets content) {issue : Issue}
    (member : issue ∈ visit.issues components) {span : Span} (located : issue.location = some span) :
    lower ≤ span.start ∧ span.start < upper := by
  obtain ⟨start, stop, stands, after, before⟩ := stands_of_mem_visits placed visited
  have extent := stands.lt
  have inside := (Visit.raises_of_mem member).start_eq stands located
  split at inside <;> omega

/-- The root of a document that has been read stands in the text. -/
theorem exists_placed_of_parse {file : Nat} {text : String} {document : Document}
    (parsed : Xml.parse file text = .ok document) :
    ∃ lower upper, (Content.element document.root.tag document.root.content .empty).Placed file
      (withoutMark text.toList) lower upper := by
  obtain ⟨start, stop, span, -, -, written, first, last, opened, closed, inner⟩ :=
    (placed_of_parse parsed).of_mem _ document.root_mem_allNodes
  rw [Node.children, Content.ofNodes_nodes] at inner
  exact ⟨start, stop, .element (Nat.le_refl start) opened closed span written inner
    (.empty (Nat.le_refl stop))⟩

end Positions

end KeyholeMarkup.Schema

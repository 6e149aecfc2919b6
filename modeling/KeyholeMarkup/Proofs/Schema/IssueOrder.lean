import KeyholeMarkup.Proofs.Schema.Visits

/-! The order of the issues with a document. Elements are checked in document order, and of each its
own issues come first and then those with its children. A child that is not admitted is reported
with its parent, though, before anything that is found in the children in front of it. -/
namespace KeyholeMarkup.Schema
open KeyholeMarkup.Source KeyholeMarkup.Xml

/-- The offsets at which the located ones among some issues start. -/
def starts (issues : List Issue) : List Nat :=
  issues.filterMap fun issue => issue.location.map (·.start)

/-- A child that the content model of its parent does not admit. -/
def Violation.isRefusal : Violation → Bool
  | .unexpectedChild .. => true
  | _ => false

/-- An issue that starts no later than another one, if both are located. -/
def Issue.NotBehind (earlier later : Issue) : Prop :=
  ∀ span ∈ earlier.location, ∀ span' ∈ later.location, span.start ≤ span'.start

/-- The issues in the content of an element that is checked. -/
def Visit.issuesInside (components : Components) (visit : Visit) : List Issue :=
  components.visit (visit.inside components) visit.element.content

/-- An element that begins before another one. -/
def Element.BeginsBefore (earlier later : Element) : Prop :=
  ∃ span span', earlier.tag.span = some span ∧ later.tag.span = some span' ∧
    span.start < span'.start

variable {components : Components} {file lower upper start stop : Nat} {text : List Char}

theorem pairwise_starts_iff (issues : List Issue) :
    (starts issues).Pairwise (· ≤ ·) ↔ issues.Pairwise Issue.NotBehind := by
  rw [starts, List.pairwise_filterMap]
  refine ⟨List.Pairwise.imp ?_, List.Pairwise.imp ?_⟩
  · intro earlier later ordered span located span' located'
    apply ordered span.start ?_ span'.start ?_
    · rw [located]
      rfl
    · rw [located']
      rfl
  · intro earlier later ordered first read first' read'
    obtain ⟨span, located, rfl⟩ := Option.map_eq_some_iff.mp read
    obtain ⟨span', located', rfl⟩ := Option.map_eq_some_iff.mp read'
    exact ordered span located span' located'

/-- Repeated reports of missing components have no place, so leaving them out changes no order. -/
theorem starts_firstReports (visits : List Visit) (keep : Issue → Bool) :
    starts ((Components.firstReports [] (visits.flatMap (·.issues components))).filter keep) =
      starts ((visits.flatMap (·.issues components)).filter keep) := by
  simp only [starts, List.filterMap_filter]
  apply filterMap_firstReports
  intro issue member unresolved
  obtain ⟨visit, -, raised⟩ := List.mem_flatMap.mp member
  rw [(Visit.raises_of_mem raised).location_eq_none unresolved]
  split <;> rfl

namespace Visit
variable {visit : Visit}

theorem notBehind_of_own (stands : Stands file text start stop visit.element) {issue other : Issue}
    (own : issue.violation.ofChild = false) (raises : visit.Raises issue)
    (raises' : visit.Raises other) : issue.NotBehind other := by
  intro span located span' located'
  have here := raises.start_eq stands located
  have there := raises'.start_eq stands located'
  rw [own] at here
  simp only [Bool.false_eq_true, if_false] at here
  split at there <;> omega

/-- Children are reported in their order. -/
theorem pairwise_assessChild (stands : Stands file text start stop visit.element)
    (particles : List Particle) : (visit.children.flatMap fun child =>
      (components.assessChild particles visit.element visit.path child.1 child.2).1).Pairwise
        Issue.NotBehind := by
  rw [List.pairwise_flatMap]
  refine ⟨fun child _ => ?_, (pairwise_children stands).imp
    fun {earlier later} related issue member other member' => ?_⟩
  · unfold Components.assessChild
    split <;> simp
  · obtain ⟨start, stop, start', stop', stands, stands', behind⟩ := related
    have extent := stands.lt
    intro span located span' located'
    rcases eq_of_mem_assessChild member with ⟨component, rfl⟩ | rfl
    · cases located
    rcases eq_of_mem_assessChild member' with ⟨component, rfl⟩ | rfl
    · cases located'
    obtain rfl := Option.some.inj (stands.span.symm.trans located)
    obtain rfl := Option.some.inj (stands'.span.symm.trans located')
    dsimp only
    omega

theorem pairwise_childIssues (stands : Stands file text start stop visit.element)
    (type : EffectiveType) : (components.childIssues type visit).Pairwise Issue.NotBehind := by
  unfold Components.childIssues
  split
  · exact .nil
  · cases visit.element.content.elements.head? <;> simp
  · exact pairwise_assessChild stands _

/-- What is reported when an element is checked is in order. -/
theorem pairwise_issues (stands : Stands file text start stop visit.element) :
    (visit.issues components).Pairwise Issue.NotBehind := by
  cases declared : visit.declaration? components with
  | none =>
    rw [issues_undeclared declared]
    exact .nil
  | some declaration =>
    cases concrete : declaration.isAbstract with
    | true =>
      rw [issues_abstract declared concrete]
      exact List.pairwise_singleton _ _
    | false =>
      have raises {issue : Issue} (member : issue ∈ visit.issues components) :
          visit.Raises issue := raises_of_mem member
      rw [issues_concrete declared concrete] at raises ⊢
      have own : ∀ issue ∈ (components.typeOf referenceDepth declaration).missing.map
            (Components.missingIssue visit.path) ++
          Components.attributeIssues (foundType components declaration) visit.element visit.path,
          issue.violation.ofChild = false := by
        intro issue member
        rcases List.mem_append.mp member with missing | attributes
        · obtain ⟨component, -, rfl⟩ := List.mem_map.mp missing
          rfl
        · exact (own_of_mem_attributeIssues attributes).2.1
      refine List.pairwise_append.mpr ⟨?_, pairwise_childIssues stands _, ?_⟩
      · apply List.pairwise_of_forall_mem_list
        intro issue member other member'
        exact notBehind_of_own stands (own issue member) (raises (List.mem_append_left _ member))
          (raises (List.mem_append_left _ member'))
      · intro issue member other member'
        exact notBehind_of_own stands (own issue member) (raises (List.mem_append_left _ member))
          (raises (List.mem_append_right _ member'))

/-- Where a child is reported that its parent admits, the content of the parent is text only and is not
visited. -/
theorem inside_eq_nil {issue : Issue} (member : issue ∈ visit.issues components)
    (ofChild : issue.violation.ofChild = true) (admitted : issue.violation.isRefusal = false) :
    visit.inside components = [] := by
  cases declared : visit.declaration? components with
  | none => simp [issues_undeclared declared] at member
  | some declaration =>
    cases concrete : declaration.isAbstract with
    | true => exact inside_abstract declared concrete
    | false =>
      rw [issues_concrete declared concrete, List.mem_append, List.mem_append] at member
      rcases member with (missing | attributes) | child
      · obtain ⟨component, -, rfl⟩ := List.mem_map.mp missing
        cases ofChild
      · have own := (own_of_mem_attributeIssues attributes).2.1
        rw [own] at ofChild
        cases ofChild
      · unfold Components.childIssues at child
        split at child
        · cases child
        · rename_i content
          exact inside_textOnly declared content
        · obtain ⟨held, -, inner⟩ := List.mem_flatMap.mp child
          rcases eq_of_mem_assessChild inner with ⟨component, rfl⟩ | rfl
          · cases ofChild
          · cases admitted

/-- Nothing but a refused child is reported ahead of something that begins before it. -/
theorem notBehind_inside (stands : Stands file text start stop visit.element) {issue other : Issue}
    (member : issue ∈ visit.issues components) (admitted : issue.violation.isRefusal = false)
    (inside : other ∈ visit.issuesInside components) : issue.NotBehind other := by
  cases place : issue.violation.ofChild with
  | true =>
    rw [issuesInside, inside_eq_nil member place admitted, visit_nil] at inside
    cases inside
  | false =>
    obtain ⟨first, last, opened, closed, inner⟩ := stands.content
    intro span located span' located'
    have here := (raises_of_mem member).start_eq stands located
    rw [place] at here
    simp only [Bool.false_eq_true, if_false] at here
    rw [issuesInside, visit_eq_flatMap] at inside
    obtain ⟨visit', visited, raised⟩ := List.mem_flatMap.mp inside
    have there := between_of_mem_visits inner visited raised located'
    omega

end Visit

/-- Some of the issues of a content are in order exactly if none of them that is reported of an element
lies behind one in the content of this element. -/
theorem pairwise_visit_iff (keep : Issue → Bool) {content : Content}
    (placed : content.Placed file text lower upper) (targets : List (Target × String)) :
    ((components.visit targets content).filter keep).Pairwise Issue.NotBehind ↔
      ∀ visit ∈ components.visits targets content,
        ∀ issue ∈ (visit.issues components).filter keep,
          ∀ other ∈ (visit.issuesInside components).filter keep, issue.NotBehind other := by
  induction placed generalizing targets with
  | empty _ => simp [Components.visit, Components.visits]
  | comment _ _ _ _ ih => exact ih targets
  | @element lower upper start first last stop tag inner rest behind opened closed span written
      within others ihInner ihRest =>
    cases targets with
    | nil => simp [Components.visit, Components.visits]
    | cons target targets =>
      obtain ⟨target, path⟩ := target
      let visit : Visit := ⟨target, ⟨tag, inner⟩, path⟩
      have stands : Stands file text start stop visit.element :=
        ⟨span, first, last, opened, closed, within⟩
      have step : components.visit ((target, path) :: targets) (.element tag inner rest) =
          visit.issues components ++ visit.issuesInside components ++
            components.visit targets rest := rfl
      -- the element ends before what follows it begins
      have apart : ∀ issue ∈ (visit.issues components ++ visit.issuesInside components).filter keep,
          ∀ other ∈ (components.visit targets rest).filter keep, issue.NotBehind other := by
        intro issue member other member' span located span' located'
        have before : span.start < stop := by
          rcases List.mem_append.mp (List.mem_of_mem_filter member) with own | inside
          · have place := (Visit.raises_of_mem own).start_eq stands located
            have extent := stands.lt
            split at place <;> omega
          · rw [Visit.issuesInside, visit_eq_flatMap] at inside
            obtain ⟨visit', visited, raised⟩ := List.mem_flatMap.mp inside
            have between := between_of_mem_visits within visited raised located
            omega
        have after : stop ≤ span'.start := by
          have inside := List.mem_of_mem_filter member'
          rw [visit_eq_flatMap] at inside
          obtain ⟨visit', visited, raised⟩ := List.mem_flatMap.mp inside
          exact (between_of_mem_visits others visited raised located').1
        omega
      rw [step, List.filter_append, List.filter_append, List.pairwise_append, List.pairwise_append,
        ← List.filter_append, Components.visits, List.forall_mem_cons, List.forall_mem_append,
        ← ihInner, ← ihRest]
      constructor
      · rintro ⟨⟨-, inside, own⟩, later, -⟩
        exact ⟨own, inside, later⟩
      · rintro ⟨own, inside, later⟩
        exact ⟨⟨(Visit.pairwise_issues stands).filter _, inside, own⟩, later, apart⟩

/-- Elements are visited in document order. -/
theorem pairwise_visits {content : Content} (placed : content.Placed file text lower upper)
    (targets : List (Target × String)) : (components.visits targets content).Pairwise
      fun earlier later => Element.BeginsBefore earlier.element later.element := by
  induction placed generalizing targets with
  | empty _ => simp [Components.visits]
  | comment _ _ _ _ ih => exact ih targets
  | @element lower upper start first last stop tag inner rest behind opened closed span written
      within others ihInner ihRest =>
    cases targets with
    | nil => simp [Components.visits]
    | cons target targets =>
      have extent := within.le
      refine List.pairwise_cons.mpr ⟨fun visit member => ?_,
        List.pairwise_append.mpr ⟨ihInner _, ihRest _, fun visit member other member' => ?_⟩⟩
      · rcases List.mem_append.mp member with member | member
        · obtain ⟨start', stop', stands, after, -⟩ := stands_of_mem_visits within member
          exact ⟨_, _, span, stands.span, Nat.lt_of_lt_of_le opened after⟩
        · obtain ⟨start', stop', stands, after, -⟩ := stands_of_mem_visits others member
          refine ⟨_, _, span, stands.span, ?_⟩
          dsimp only
          omega
      · obtain ⟨start', stop', stands, -, before⟩ := stands_of_mem_visits within member
        obtain ⟨start'', stop'', stands', after, -⟩ := stands_of_mem_visits others member'
        have room := stands.lt
        refine ⟨_, _, stands.span, stands'.span, ?_⟩
        dsimp only
        omega

section Document
variable {document : Document} {declaration : ElementDeclaration}
  (found : components.elements.find? document.root.name = some declaration)
  (placed : (Content.element document.root.tag document.root.content .empty).Placed file text lower
    upper)
include found

theorem visitsOf_eq : components.visitsOf document =
    components.visits [(.declared declaration, "/" ++ document.root.name.localName)]
      (.element document.root.tag document.root.content .empty) := by
  simp only [Components.visitsOf, found]

include placed

theorem stands_of_mem_visitsOf : ∀ visit ∈ components.visitsOf document,
    ∃ start stop, Stands file text start stop visit.element := by
  rw [visitsOf_eq found]
  intro visit member
  obtain ⟨start, stop, stands, -, -⟩ := stands_of_mem_visits placed member
  exact ⟨start, stop, stands⟩

theorem pairwise_starts_issues_iff (keep : Issue → Bool) :
    (starts ((components.issues document).filter keep)).Pairwise (· ≤ ·) ↔
      ∀ visit ∈ components.visitsOf document, ∀ issue ∈ (visit.issues components).filter keep,
        ∀ other ∈ (visit.issuesInside components).filter keep, issue.NotBehind other := by
  rw [issues_eq document found, starts_firstReports, pairwise_starts_iff, visitsOf_eq found,
    ← visit_eq_flatMap]
  exact pairwise_visit_iff keep placed _

end Document

/-- The issues with a document that has been read start in document order, but for children that are
not admitted: those are reported with their parents. The elements are visited in document order, all
other issues come in the order in which they start, and all issues do exactly if no child that its
parent refuses begins behind an issue that is found in its siblings. -/
theorem issues_ordered_of_parse {file : Nat} {text : String} {document : Document}
    (parsed : Xml.parse file text = .ok document) (components : Components) :
    (components.visitsOf document).Pairwise
      (fun earlier later => Element.BeginsBefore earlier.element later.element) ∧
    (starts ((components.issues document).filter fun issue =>
      !issue.violation.isRefusal)).Pairwise (· ≤ ·) ∧
    ((starts (components.issues document)).Pairwise (· ≤ ·) ↔
      ∀ visit ∈ components.visitsOf document, ∀ refusal ∈ visit.issues components,
        refusal.violation.isRefusal = true → ∀ issue ∈ visit.issuesInside components,
          refusal.NotBehind issue) := by
  obtain ⟨lower, upper, placed⟩ := exists_placed_of_parse parsed
  cases found : components.elements.find? document.root.name with
  | none =>
    have alone : components.issues document = [⟨.undeclaredRoot document.root.name.clark,
        "/" ++ document.root.name.localName, document.root.tag.span⟩] := by
      simp only [Components.issues, found]
    have unvisited : components.visitsOf document = [] := by
      simp only [Components.visitsOf, found]
    rw [alone, unvisited, pairwise_starts_iff, pairwise_starts_iff]
    exact ⟨.nil, (List.pairwise_singleton _ _).filter _, by simp⟩
  | some declaration =>
    have stands := stands_of_mem_visitsOf found placed
    refine ⟨visitsOf_eq found ▸ pairwise_visits placed _,
      (pairwise_starts_issues_iff found placed _).mpr ?_, ?_⟩
    · intro visit member issue raised other inside
      obtain ⟨start, stop, standing⟩ := stands visit member
      obtain ⟨raised, admitted⟩ := List.mem_filter.mp raised
      exact Visit.notBehind_inside standing raised (by simpa using admitted)
        (List.mem_of_mem_filter inside)
    · have all := pairwise_starts_issues_iff found placed fun _ => true
      simp only [List.filter_true] at all
      rw [all]
      constructor
      · intro inOrder visit member refusal raised _
        exact inOrder visit member refusal raised
      · intro inOrder visit member issue raised other inside
        obtain ⟨start, stop, standing⟩ := stands visit member
        cases admitted : issue.violation.isRefusal with
        | true => exact inOrder visit member issue raised admitted other inside
        | false => exact Visit.notBehind_inside standing raised admitted inside

/-- A schema for a root that holds only elements without attributes and content. -/
def bareChildren : Components where
  elements := [(.plain "r", ⟨.plain "r", .anonymous (.complex ⟨none,
    .particle (.element ⟨.plain "a", .anonymous (.complex .empty), none, false⟩), [], [], false⟩),
    none, false⟩)]
  types := []
  groups := []
  attributeGroups := []
  substitutions := []

/-- The document `<r><a x='1'/><b/></r>` as it is read. -/
def bareAndRefused : Document :=
  ⟨[], ⟨⟨.plain "r", none, [], [], none, some ⟨0, 0, 21⟩⟩,
    .element ⟨.plain "a", none, [], [⟨.plain "x", none, "1"⟩], none, some ⟨0, 3, 13⟩⟩ .empty
      (.element ⟨.plain "b", none, [], [], none, some ⟨0, 13, 17⟩⟩ .empty .empty)⟩, []⟩

/-- The refused second child is reported ahead of the attribute of the first one. -/
theorem issues_ordered_of_parse_refused :
    ∃ document, Xml.parse 0 "<r><a x='1'/><b/></r>" = .ok document ∧
      (bareChildren.visitsOf document).Pairwise
        (fun earlier later => Element.BeginsBefore earlier.element later.element) ∧
      (starts ((bareChildren.issues document).filter fun issue =>
        !issue.violation.isRefusal)).Pairwise (· ≤ ·) ∧
      starts (bareChildren.issues document) = [13, 3] ∧
      ¬ ∀ visit ∈ bareChildren.visitsOf document, ∀ refusal ∈ visit.issues bareChildren,
        refusal.violation.isRefusal = true → ∀ issue ∈ visit.issuesInside bareChildren,
          refusal.NotBehind issue := by
  have parsed : Xml.parse 0 "<r><a x='1'/><b/></r>" = .ok bareAndRefused := by rfl
  obtain ⟨visits, others, all⟩ := issues_ordered_of_parse parsed bareChildren
  have reported : starts (bareChildren.issues bareAndRefused) = [13, 3] := by decide
  refine ⟨_, parsed, visits, others, reported, fun inOrder => ?_⟩
  have ordered := all.mpr inOrder
  rw [reported] at ordered
  simp at ordered

end KeyholeMarkup.Schema

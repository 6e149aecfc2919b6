import KeyholeMarkup.Proofs.Schema.AttributeLists
import KeyholeMarkup.Proofs.Schema.ElementPaths
import KeyholeMarkup.Proofs.Schema.IssueOrder

/-! No issue is reported twice, but for required attributes that a type holds more than once. What is
reported of an element is located where it or one of its children begins, and no other element can
be reported there for the same reason. -/
namespace KeyholeMarkup.Schema
open KeyholeMarkup.Source KeyholeMarkup.Xml

variable {components : Components} {file lower upper start stop : Nat} {text : List Char}

section Places

/-- An element does not begin inside another element of the same content. -/
theorem not_begins_inside {content : Content} (placed : content.Placed file text lower upper)
    {child other : Element} (member : child ∈ content.elements) (member' : other ∈ content.elements)
    {start' stop' : Nat} (stands : Stands file text start stop child)
    (stands' : Stands file text start' stop' other) : ¬ (start' < start ∧ start < stop') := by
  let Apart (first second : Element) : Prop := ∀ start stop start' stop',
    Stands file text start stop first → Stands file text start' stop' second →
      ¬ (start' < start ∧ start < stop') ∧ ¬ (start < start' ∧ start' < stop)
  have symmetric : Std.Symm Apart :=
    ⟨fun _ _ apart _ _ _ _ stands stands' => (apart _ _ _ _ stands' stands).symm⟩
  have reflexive : ∀ child ∈ content.elements, Apart child child := by
    intro child _ start stop start' stop' stands stands'
    obtain ⟨rfl, rfl⟩ := stands.unique stands'
    omega
  have ordered : content.elements.Pairwise Apart := by
    refine (stands_elements placed).2.imp ?_
    rintro first second ⟨_, _, _, _, here, there, before⟩ start stop start' stop' stands stands'
    obtain ⟨rfl, rfl⟩ := here.unique stands
    obtain ⟨rfl, rfl⟩ := there.unique stands'
    have extent := stands.lt
    have extent' := stands'.lt
    omega
  exact (ordered.forall_of_forall reflexive member member' _ _ _ _ stands stands').1

/-- What is visited in a content is in one of its elements. -/
theorem enclosed_of_mem_visits {content : Content} (placed : content.Placed file text lower upper)
    {targets : List (Target × String)} {visit : Visit}
    (visited : visit ∈ components.visits targets content) :
    ∃ top ∈ content.elements, Encloses file text top visit.element := by
  induction placed generalizing targets with
  | empty _ => simp [Components.visits] at visited
  | comment _ _ _ _ ih => exact ih visited
  | @element lower upper start first last stop tag inner rest behind opened closed span written
      within others _ ihRest =>
    have stands : Stands file text start stop ⟨tag, inner⟩ :=
      ⟨span, first, last, opened, closed, within⟩
    cases targets with
    | nil => simp [Components.visits] at visited
    | cons target targets =>
      rcases List.mem_cons.mp visited with rfl | visited
      · exact ⟨_, List.mem_cons_self, start, stop, start, stop, stands, stands, Nat.le_refl _,
          Nat.le_refl _⟩
      rcases List.mem_append.mp visited with inside | later
      · obtain ⟨start', stop', stands', after, before⟩ := stands_of_mem_visits within inside
        exact ⟨_, List.mem_cons_self, start, stop, start', stop', stands, stands', by omega, by omega⟩
      · obtain ⟨top, held, encloses⟩ := ihRest later
        exact ⟨top, List.mem_cons_of_mem _ held, encloses⟩

/-- Of two visits the later one is behind the earlier one or in one of its children. -/
theorem pairwise_visits_apart (components : Components) {content : Content} (placed : content.Placed file text lower upper)
    (targets : List (Target × String)) : (components.visits targets content).Pairwise
      fun earlier later => Precedes file text earlier.element later.element ∨
        ∃ child ∈ earlier.element.content.elements, Encloses file text child later.element := by
  induction placed generalizing targets with
  | empty _ => simp [Components.visits]
  | comment _ _ _ _ ih => exact ih targets
  | @element lower upper start first last stop tag inner rest behind opened closed span written
      within others ihInner ihRest =>
    have stands : Stands file text start stop ⟨tag, inner⟩ :=
      ⟨span, first, last, opened, closed, within⟩
    cases targets with
    | nil => simp [Components.visits]
    | cons target targets =>
      refine List.pairwise_cons.mpr ⟨fun visit member => ?_,
        List.pairwise_append.mpr ⟨ihInner _, ihRest _, fun visit member other member' => .inl ?_⟩⟩
      · rcases List.mem_append.mp member with member | member
        · exact .inr (enclosed_of_mem_visits within member)
        · obtain ⟨start', stop', stands', after, -⟩ := stands_of_mem_visits others member
          exact .inl ⟨start, stop, start', stop', stands, stands', after⟩
      · obtain ⟨start', stop', stands', -, before⟩ := stands_of_mem_visits within member
        obtain ⟨start'', stop'', stands'', after, -⟩ := stands_of_mem_visits others member'
        exact ⟨start', stop', start'', stop'', stands', stands'', by omega⟩

end Places

namespace Visit
variable {visit other : Visit} {issue : Issue}

/-- What is reported of a child is located at a child. -/
theorem Raises.exists_child (raises : visit.Raises issue) (ofChild : issue.violation.ofChild = true) :
    ∃ child ∈ visit.element.content.elements, issue.location = child.tag.span := by
  cases raises with
  | missing missing => cases ofChild
  | own _ own => exact absurd (ofChild.symm.trans own) (by simp)
  | inTextOnly held => exact ⟨_, held, rfl⟩
  | refused held => exact ⟨_, (List.of_mem_zip held).1, rfl⟩

/-- All but missing components are located. -/
theorem Raises.located (raises : visit.Raises issue)
    (stands : Stands file text start stop visit.element)
    (resolved : issue.violation.isUnresolved = false) : ∃ span, issue.location = some span := by
  cases place : issue.violation.ofChild with
  | true =>
    obtain ⟨first, last, -, -, inner⟩ := stands.content
    obtain ⟨child, held, location⟩ := raises.exists_child place
    obtain ⟨start', stop', stands', -, -⟩ := (stands_elements inner).1 child held
    exact ⟨_, location.trans stands'.span⟩
  | false =>
    cases raises with
    | missing missing => cases resolved
    | own _ _ => exact ⟨_, stands.span⟩
    | inTextOnly _ => cases place
    | refused _ => cases place

/-- Nothing is reported of two elements that are visited one after the other. -/
theorem not_raises_both (apart : Precedes file text visit.element other.element ∨
      ∃ child ∈ visit.element.content.elements, Encloses file text child other.element)
    (stands : Stands file text start stop visit.element)
    (resolved : issue.violation.isUnresolved = false) (raises : visit.Raises issue) :
    ¬ other.Raises issue := by
  intro raises'
  obtain ⟨span, located⟩ := raises.located stands resolved
  obtain ⟨first, last, opened, closed, inner⟩ := stands.content
  have here := raises.start_eq stands located
  rcases apart with ⟨_, _, _, _, stands', behind, before⟩ |
      ⟨child, held, _, _, _, _, around, within, after, before⟩
  · obtain ⟨rfl, rfl⟩ := stands.unique stands'
    have there := raises'.start_eq behind located
    have extent := stands.lt
    split at here <;> split at there <;> omega
  · have there := raises'.start_eq within located
    have extent := within.lt
    obtain ⟨_, _, stands', lower, upper⟩ := (stands_elements inner).1 child held
    obtain ⟨rfl, rfl⟩ := stands'.unique around
    cases place : issue.violation.ofChild with
    | false =>
      simp only [place, Bool.false_eq_true, if_false] at here there
      omega
    | true =>
      -- the later element is inside a child, where none of the children begins
      simp only [place, if_true] at there
      obtain ⟨above, below⟩ := there
      obtain ⟨sibling, held', location⟩ := raises.exists_child place
      obtain ⟨start', _, begins, -, -⟩ := (stands_elements inner).1 sibling held'
      obtain rfl := Option.some.inj (located.symm.trans (location.trans begins.span))
      exact not_begins_inside inner held' held begins around
        ⟨Nat.lt_of_le_of_lt after above, Nat.lt_of_lt_of_le below before⟩

end Visit

section Attributes
variable {type : EffectiveType} {element : Element} {path : String}

/-- A name without braces in its local part. In Clark notation they set off the namespace. -/
def Braceless (name : Name) : Prop := '{' ∉ name.localName.toList ∧ '}' ∉ name.localName.toList

instance (name : Name) : Decidable (Braceless name) := inferInstanceAs (Decidable (_ ∧ _))

theorem clark_inj {first second : Name} (plain : Braceless first) (plain' : Braceless second)
    (same : first.clark = second.clark) : first = second := by
  obtain ⟨uri, localName⟩ := first
  obtain ⟨uri', localName'⟩ := second
  have characters := congrArg String.toList same
  cases uri <;> cases uri' <;>
    simp only [Name.clark, String.toList_append, List.append_assoc] at characters
  · rw [String.toList_inj.mp characters]
  · exact absurd (by simp [characters]) plain.1
  · exact absurd (by simp [← characters]) plain'.1
  · rename_i uri uri'
    -- the last closing brace ends the namespace, so the names are compared from their ends
    have backward := congrArg List.reverse characters
    simp only [List.reverse_append, List.append_assoc] at backward
    obtain ⟨sameLocal, rest⟩ := eq_of_separated '}' (by simpa using plain.2)
      (by simpa using plain'.2) (by simp) (by simp) backward
    have sameUri : uri = uri' := by simpa [String.toList_inj] using rest
    rw [sameUri, String.toList_inj.mp (List.reverse_inj.mp sameLocal)]

/-- The required attributes of a type that an element lacks, as they are written. -/
def lackedNames (type : EffectiveType) (element : Element) : List String :=
  match type.content with
  | .any => []
  | _ => (type.attributes.filter fun entry =>
      entry.required && (element.attributeNamed? entry.name).isNone).map (·.name.clark)

theorem nodup_missingAttributes_iff : (Components.missingAttributes type element path).Nodup ↔
    ((type.attributes.filter fun entry =>
      entry.required && (element.attributeNamed? entry.name).isNone).map (·.name.clark)).Nodup := by
  let report (name : String) : Issue :=
    ⟨.missingAttribute name element.name.localName, path, element.tag.span⟩
  have distinct : Function.Injective report := fun first second same => by
    injection same with violation
    injection violation
  rw [← List.nodup_map_iff distinct, List.map_map]
  rfl

theorem nodup_undeclaredAttributes (distinct : (element.tag.attributes.map (·.name)).Nodup)
    (plain : ∀ entry ∈ element.tag.attributes, Braceless entry.name) :
    (Components.undeclaredAttributes type element path).Nodup := by
  refine List.Nodup.map_on ?_ (distinct.of_map.filter _)
  intro first member second member' same
  injection same with violation
  injection violation with written
  have inside := List.mem_of_mem_filter member
  have inside' := List.mem_of_mem_filter member'
  exact List.inj_on_of_nodup_map distinct inside inside'
    (clark_inj (plain first inside) (plain second inside') written)

/-- Attributes are reported twice only if they are lacking and the type holds them twice. -/
theorem nodup_attributeIssues_iff (distinct : (element.tag.attributes.map (·.name)).Nodup)
    (plain : ∀ entry ∈ element.tag.attributes, Braceless entry.name) :
    (Components.attributeIssues type element path).Nodup ↔ (lackedNames type element).Nodup := by
  have whole : (Components.missingAttributes type element path ++
      if type.anyAttribute then [] else Components.undeclaredAttributes type element path).Nodup ↔
      (Components.missingAttributes type element path).Nodup := by
    refine ⟨fun all => (List.nodup_append.mp all).1, fun missing => ?_⟩
    refine List.nodup_append.mpr ⟨missing, ?_, ?_⟩
    · split
      · exact .nil
      · exact nodup_undeclaredAttributes distinct plain
    · intro issue lacking other undeclared
      split at undeclared
      · cases undeclared
      · obtain ⟨_, -, rfl⟩ := List.mem_map.mp lacking
        obtain ⟨_, -, rfl⟩ := List.mem_map.mp undeclared
        simp
  cases content : type.content with
  | any => simp [Components.attributeIssues, lackedNames, content]
  | textOnly | particles _ =>
    simp only [Components.attributeIssues, lackedNames, content]
    exact whole.trans nodup_missingAttributes_iff

end Attributes

namespace Visit
variable {visit : Visit} {declaration : ElementDeclaration}

theorem ofChild_of_mem_childIssues {type : EffectiveType} {issue : Issue}
    (member : issue ∈ components.childIssues type visit)
    (resolved : issue.violation.isUnresolved = false) : issue.violation.ofChild = true := by
  unfold Components.childIssues at member
  split at member
  · cases member
  · obtain ⟨child, -, rfl⟩ := List.mem_map.mp member
    rfl
  · obtain ⟨child, -, raised⟩ := List.mem_flatMap.mp member
    rcases eq_of_mem_assessChild raised with ⟨component, rfl⟩ | rfl
    · cases resolved
    · rfl

/-- No child is reported twice. -/
theorem nodup_childIssues (stands : Stands file text start stop visit.element)
    (type : EffectiveType) : ((components.childIssues type visit).filter fun issue =>
      !issue.violation.isUnresolved).Nodup := by
  unfold Components.childIssues
  split
  · exact .nil
  · refine List.Nodup.filter _ ?_
    cases visit.element.content.elements.head? <;> simp
  · rename_i particles _
    have refusal {child : Element × String} {issue : Issue}
        (member : issue ∈ (components.assessChild particles visit.element visit.path child.1
          child.2).1.filter fun issue => !issue.violation.isUnresolved) :
        issue.location = child.1.tag.span := by
      obtain ⟨raised, resolved⟩ := List.mem_filter.mp member
      rcases eq_of_mem_assessChild raised with ⟨component, rfl⟩ | rfl
      · cases resolved
      · rfl
    rw [List.filter_flatMap, List.nodup_flatMap]
    refine ⟨fun child _ => ?_, (pairwise_children stands).imp ?_⟩
    · refine List.Nodup.filter _ ?_
      unfold Components.assessChild
      split <;> simp
    · rintro earlier later ⟨_, _, _, _, stands, stands', before⟩ issue member member'
      have same := (refusal member).symm.trans (refusal member')
      rw [stands.span, stands'.span] at same
      have extent := stands.lt
      have extent' := stands'.lt
      injection same with same
      injection same with _ begins
      omega

/-- Missing components apart, the attributes are reported of an element and then its children. -/
theorem resolved_issues (declared : visit.declaration? components = some declaration)
    (concrete : declaration.isAbstract = false) :
    ((visit.issues components).filter fun issue => !issue.violation.isUnresolved) =
      Components.attributeIssues (foundType components declaration) visit.element visit.path ++
        (components.childIssues (foundType components declaration) visit).filter fun issue =>
          !issue.violation.isUnresolved := by
  have absent : ((components.typeOf referenceDepth declaration).missing.map
      (Components.missingIssue visit.path)).filter (fun issue => !issue.violation.isUnresolved) = [] := by
    refine List.filter_eq_nil_iff.mpr fun issue member => ?_
    obtain ⟨component, -, rfl⟩ := List.mem_map.mp member
    exact Bool.false_ne_true
  have own : ∀ issue ∈ Components.attributeIssues (foundType components declaration) visit.element
      visit.path, (!issue.violation.isUnresolved) = true := by
    intro issue member
    rw [(own_of_mem_attributeIssues member).1]
    rfl
  rw [issues_concrete declared concrete, List.filter_append, List.filter_append, absent,
    List.nil_append, List.filter_eq_self.mpr own]

/-- What is reported of an element is reported once, if no required attribute that it lacks is held
twice by its type. -/
theorem nodup_issues_iff (stands : Stands file text start stop visit.element)
    (distinct : (visit.element.tag.attributes.map (·.name)).Nodup)
    (plain : ∀ entry ∈ visit.element.tag.attributes, Braceless entry.name) :
    ((visit.issues components).filter fun issue => !issue.violation.isUnresolved).Nodup ↔
      ∀ declaration, visit.declaration? components = some declaration →
        declaration.isAbstract = false →
          (lackedNames (foundType components declaration) visit.element).Nodup := by
  cases declared : visit.declaration? components with
  | none => simp [issues_undeclared declared]
  | some declaration =>
    cases concrete : declaration.isAbstract with
    | true =>
      rw [issues_abstract declared concrete]
      have single := (List.nodup_singleton (⟨.abstractElement visit.element.name.localName, visit.path,
        visit.element.tag.span⟩ : Issue)).filter fun issue => !issue.violation.isUnresolved
      simp [single, concrete]
    | false =>
      rw [resolved_issues declared concrete, List.nodup_append,
        nodup_attributeIssues_iff distinct plain]
      constructor
      · rintro ⟨lacked, -, -⟩ _ same _
        rwa [← Option.some.inj same]
      · intro lacked
        refine ⟨lacked declaration rfl concrete, nodup_childIssues stands _, ?_⟩
        rintro issue member _ member' rfl
        have place := (own_of_mem_attributeIssues member).2.1
        obtain ⟨raised, resolved⟩ := List.mem_filter.mp member'
        rw [ofChild_of_mem_childIssues raised (by simpa using resolved)] at place
        cases place

end Visit

theorem tag_mem_tags_of_mem_visits {targets : List (Target × String)} {content : Content}
    {visit : Visit} (visited : visit ∈ components.visits targets content) :
    visit.element.tag ∈ content.tags := by
  induction content generalizing targets with
  | empty => simp [Components.visits] at visited
  | comment _ rest ih => exact ih visited
  | element tag inner rest ihInner ihRest =>
    cases targets with
    | nil => simp [Components.visits] at visited
    | cons target targets =>
      rcases List.mem_cons.mp visited with rfl | visited
      · exact List.mem_cons_self
      rcases List.mem_append.mp visited with inside | later
      · exact List.mem_cons_of_mem _ (List.mem_append_left _ (ihInner inside))
      · exact List.mem_cons_of_mem _ (List.mem_append_right _ (ihRest later))

/-- No two elements of a document have an issue in common. -/
theorem pairwise_disjoint_issues {document : Document} {declaration : ElementDeclaration}
    (found : components.elements.find? document.root.name = some declaration)
    (placed : (Content.element document.root.tag document.root.content .empty).Placed file text lower
      upper) :
    (components.visitsOf document).Pairwise fun earlier later =>
      ((earlier.issues components).filter fun issue => !issue.violation.isUnresolved).Disjoint
        ((later.issues components).filter fun issue => !issue.violation.isUnresolved) := by
  have related := pairwise_visits_apart components placed
    [(.declared declaration, "/" ++ document.root.name.localName)]
  rw [← visitsOf_eq found] at related
  refine related.imp_of_mem fun {earlier later} member _ apart issue raised raised' => ?_
  obtain ⟨start, stop, stands⟩ := stands_of_mem_visitsOf found placed earlier member
  obtain ⟨raised, resolved⟩ := List.mem_filter.mp raised
  exact Visit.not_raises_both apart stands (by simpa using resolved) (Visit.raises_of_mem raised)
    (Visit.raises_of_mem (List.mem_of_mem_filter raised'))

/-- The issues with a document that has been read differ if no element lacks a required attribute that
its type holds twice. A type holds an attribute as often as its bases and groups say: declarations
replace each other, but every use of a group adds the attributes of the group once more. -/
theorem nodup_issues_iff_of_parse {file : Nat} {text : String} {document : Document}
    (parsed : Xml.parse file text = .ok document)
    (distinct : ∀ tag ∈ document.root.tags, (tag.attributes.map (·.name)).Nodup)
    (plain : ∀ tag ∈ document.root.tags, ∀ entry ∈ tag.attributes, Braceless entry.name)
    (components : Components) :
    ((components.issues document).Nodup ↔
      ∀ visit ∈ components.visitsOf document, ∀ declaration,
        visit.declaration? components = some declaration → declaration.isAbstract = false →
          (lackedNames (foundType components declaration) visit.element).Nodup) ∧
    ∀ declaration name, (foundType components declaration).times name =
      components.timesHeld name (components.lineageOf referenceDepth declaration) := by
  refine ⟨?_, fun declaration name => times_typeOf name referenceDepth declaration⟩
  cases found : components.elements.find? document.root.name with
  | none =>
    have alone : (components.issues document).Nodup := by
      simp only [Components.issues, found]
      exact List.nodup_singleton _
    have unvisited : components.visitsOf document = [] := by
      simp only [Components.visitsOf, found]
    simp [alone, unvisited]
  | some declaration =>
    obtain ⟨lower, upper, placed⟩ := exists_placed_of_parse parsed
    have tags : ∀ visit ∈ components.visitsOf document, visit.element.tag ∈ document.root.tags := by
      intro visit member
      rw [visitsOf_eq found] at member
      simpa [Content.tags, Element.tags] using tag_mem_tags_of_mem_visits member
    have once : ∀ visit ∈ components.visitsOf document,
        ((visit.issues components).filter fun issue => !issue.violation.isUnresolved).Nodup ↔
          ∀ declaration, visit.declaration? components = some declaration →
            declaration.isAbstract = false →
              (lackedNames (foundType components declaration) visit.element).Nodup := by
      intro visit member
      obtain ⟨start, stop, stands⟩ := stands_of_mem_visitsOf found placed visit member
      exact Visit.nodup_issues_iff stands (distinct _ (tags visit member))
        (plain _ (tags visit member))
    rw [issues_eq document found, nodup_firstReports_iff, List.filter_flatMap, List.nodup_flatMap]
    constructor
    · rintro ⟨each, -⟩ visit member
      exact (once visit member).mp (each visit member)
    · intro each
      exact ⟨fun visit member => (once visit member).mpr (each visit member),
        pairwise_disjoint_issues found placed⟩

/-- A schema for a root whose type restricts another one. Both use a group with a required attribute. -/
def groupTwice : Components where
  elements := [(.plain "r", ⟨.plain "r", .named (.plain "D"), none, false⟩)]
  types := [(.plain "B", .complex ⟨none, .empty, [], [.plain "g"], false⟩),
    (.plain "D", .complex ⟨some (.plain "B", .restriction), .empty, [], [.plain "g"], false⟩)]
  groups := []
  attributeGroups := [(.plain "g", ⟨[⟨.plain "id", true, false⟩], [], false⟩)]
  substitutions := []

def bareRoot : Document := ⟨[], ⟨⟨.plain "r", none, [], [], none, some ⟨0, 0, 4⟩⟩, .empty⟩, []⟩

/-- The attribute that is missing is reported once for each use of the group. -/
theorem nodup_issues_iff_of_parse_twice :
    Xml.parse 0 "<r/>" = .ok bareRoot ∧
      (∀ tag ∈ bareRoot.root.tags, (tag.attributes.map (·.name)).Nodup) ∧
      (∀ tag ∈ bareRoot.root.tags, ∀ entry ∈ tag.attributes, Braceless entry.name) ∧
      groupTwice.issues bareRoot =
        List.replicate 2 ⟨.missingAttribute "id" "r", "/r", some ⟨0, 0, 4⟩⟩ ∧
      ¬ (∀ visit ∈ groupTwice.visitsOf bareRoot, ∀ declaration,
        visit.declaration? groupTwice = some declaration → declaration.isAbstract = false →
          (lackedNames (foundType groupTwice declaration) visit.element).Nodup) ∧
      ∀ declaration name, (foundType groupTwice declaration).times name =
        groupTwice.timesHeld name (groupTwice.lineageOf referenceDepth declaration) := by
  have parsed : Xml.parse 0 "<r/>" = .ok bareRoot := by rfl
  have distinct : ∀ tag ∈ bareRoot.root.tags, (tag.attributes.map (·.name)).Nodup := by decide
  have plain : ∀ tag ∈ bareRoot.root.tags, ∀ entry ∈ tag.attributes, Braceless entry.name := by decide
  obtain ⟨once, held⟩ := nodup_issues_iff_of_parse parsed distinct plain groupTwice
  have reported : groupTwice.issues bareRoot =
      List.replicate 2 ⟨.missingAttribute "id" "r", "/r", some ⟨0, 0, 4⟩⟩ := by decide
  refine ⟨parsed, distinct, plain, reported, fun each => ?_, held⟩
  have different := once.mpr each
  rw [reported] at different
  exact absurd different (by decide)

end KeyholeMarkup.Schema

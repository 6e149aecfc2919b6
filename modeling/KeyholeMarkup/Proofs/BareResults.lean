import KeyholeMarkup.Geometry.Polygon
import KeyholeMarkup.Proofs.Schema.FirstReports
import KeyholeMarkup.Proofs.Script.Refusal
import KeyholeMarkup.Proofs.Xml.Presentation
import KeyholeMarkup.Xml.Count
import KeyholeMarkup.Xml.Reader

/-! What is computed of a document: its counts, its polygons, its scripts and its issues. All of it is
as for the bare document, but for the positions that errors and issues have in the source. -/
namespace KeyholeMarkup.Xml

def Event.bare : Event → Event
  | .opened element => .opened element.bare
  | .closed element => .closed element.bare
  | .comment entry => .comment entry.unplaced

theorem Content.events_bare (content : Content) :
    content.bare.events = content.events.map Event.bare := by
  induction content with
  | empty => rfl
  | comment entry rest ih => simp only [bare, events, List.map_cons, ih, Event.bare]
  | element tag inner rest ihInner ihRest =>
    simp only [bare, events, List.cons_append, List.map_cons, List.map_append, ihInner, ihRest,
      Event.bare, Element.bare]

theorem Document.events_bare (document : Document) :
    document.bare.events = document.events.map Event.bare := by
  simp [events, Element.events, bare, Element.bare, Content.events_bare, Event.bare,
    Function.comp_def]

theorem Content.elements_bare (content : Content) :
    content.bare.elements = content.elements.map Element.bare := by
  induction content with
  | empty => rfl
  | comment entry rest ih => exact ih
  | element tag inner rest _ ih => simp only [bare, elements, List.map_cons, ih, Element.bare]

theorem Document.counts_bare (document : Document) : document.bare.counts = document.counts := by
  rw [counts, counts, events_bare, List.foldl_map]
  congr 1
  funext counts event
  cases event <;> rfl

end KeyholeMarkup.Xml

namespace KeyholeMarkup.Geometry
open KeyholeMarkup.Xml

theorem kmlChildren_bare (element : Element) (localName : String) :
    kmlChildren element.bare localName = (kmlChildren element localName).map Element.bare := by
  rw [kmlChildren, kmlChildren, Element.bare, Content.elements_bare, List.filter_map]
  rfl

theorem ring?_bare (boundary : Element) : ring? boundary.bare = ring? boundary := by
  simp only [ring?, kmlChildren_bare, List.head?_map, bind, Option.bind_map, Function.comp_def]
  rfl

theorem rings?_bare (polygon : Element) : rings? polygon.bare = rings? polygon := by
  simp only [rings?, kmlChildren_bare, List.head?_map, List.filterMap_map, Option.bind_map,
    Function.comp_def, ring?_bare]

theorem polygons_bare (document : Document) : polygons document.bare = polygons document := by
  rw [polygons, polygons, Document.events_bare, List.filterMap_map]
  congr 1
  funext event
  cases event with
  | opened element => simp only [Function.comp_def, Event.bare, rings?_bare]; rfl
  | closed element => rfl
  | comment entry => rfl

end KeyholeMarkup.Geometry

namespace KeyholeMarkup.Script
open KeyholeMarkup.Xml

/-- An error without the position of the element. -/
def Error.unplaced : Error → Error
  | .unknownNamespace uri localName _ => .unknownNamespace uri localName none
  | .noRootElement => .noRootElement

theorem Emitter.leave_bare (emitter : Emitter) (element : Element) :
    emitter.leave element.bare = emitter.leave element := by
  unfold leave
  cases emitter.calls with
  | nil => rfl
  | cons argument calls =>
    simp only [Element.bare, Tag.bare, List.flatMap_map, List.isEmpty_map]
    rfl

/-- A bare event does to an emitter what the event does. -/
theorem Emitter.emit_bare (emitter : Emitter) (event : Event) :
    emitter.emit event.bare =
      ((emitter.emit event).1, (emitter.emit event).2.map Error.unplaced) := by
  cases event with
  | closed element => simp only [Event.bare, emit, leave_bare, Option.map_none]
  | comment entry => rfl
  | opened element =>
    have builder : element.bare.name = element.name := rfl
    have opening (builder : String) (depth : Nat) :
        Opening.ofTag builder element.bare.tag depth = Opening.ofTag builder element.tag depth := rfl
    simp only [Event.bare, emit, enter, builder, opening]
    cases emitter.separate.builders.resolve element.name.uri <;> rfl

theorem Emitter.run_bare (emitter : Emitter) (events : List Event) :
    emitter.run (events.map Event.bare) = (emitter.run events).mapError Error.unplaced := by
  induction events generalizing emitter with
  | nil => rfl
  | cons event events ih =>
    rw [List.map_cons, run, run, emit_bare]
    generalize emitter.emit event = emitted
    obtain ⟨after, answer⟩ := emitted
    cases answer with
    | some error => rfl
    | none => exact ih after

theorem ofDocument_bare (builders : Builders) (document : Document) :
    ofDocument builders document.bare = (ofDocument builders document).mapError Error.unplaced := by
  rw [ofDocument, ofDocument, Document.events_bare, ofEvents, ofEvents, Emitter.run_bare]
  cases (Emitter.start builders).run document.events with
  | error error => rfl
  | ok after =>
    change ((after.finish).bind _) = ((after.finish).bind _).mapError _
    unfold Emitter.finish
    cases after.stage <;> rfl

theorem exists_unknownNamespace {builders : Builders} {document : Document} {error : Error}
    (failed : ofDocument builders document = .error error) :
    ∃ uri localName location, error = .unknownNamespace uri localName location := by
  cases found : document.root.tags.findSome? builders.refusalOf? with
  | none =>
    obtain ⟨script, written⟩ := ofDocument_of_covered fun tag member =>
      Builders.refusalOf?_eq_none_iff.mp (List.findSome?_eq_none_iff.mp found tag member)
    rw [written] at failed
    cases failed
  | some refusal =>
    obtain rfl : refusal = error := Except.error.inj ((ofDocument_of_refused found).symm.trans failed)
    obtain ⟨tag, _, refused⟩ := List.exists_of_findSome?_eq_some found
    obtain ⟨-, uri, -, same⟩ := Builders.refusalOf?_eq_some_iff.mp refused
    exact ⟨uri, _, _, same⟩

/-- The same script for both documents, or the same namespace and element without a builder. -/
def SameScript (builders : Builders) (first second : Document) : Prop :=
  (∃ script, ofDocument builders first = .ok script ∧ ofDocument builders second = .ok script) ∨
  ∃ uri localName location location',
    ofDocument builders first = .error (.unknownNamespace uri localName location) ∧
    ofDocument builders second = .error (.unknownNamespace uri localName location')

theorem sameScript_of_bare {first second : Document} (bare : first.bare = second.bare)
    (builders : Builders) : SameScript builders first second := by
  have written : (ofDocument builders first).mapError Error.unplaced =
      (ofDocument builders second).mapError Error.unplaced := by
    rw [← ofDocument_bare, bare, ofDocument_bare]
  cases own : ofDocument builders first with
  | ok script =>
    cases other : ofDocument builders second with
    | ok script' =>
      rw [own, other] at written
      exact .inl ⟨script, own, other.trans (congrArg _ (Except.ok.inj written).symm)⟩
    | error error =>
      rw [own, other] at written
      cases written
  | error error =>
    obtain ⟨uri, localName, location, rfl⟩ := exists_unknownNamespace own
    cases other : ofDocument builders second with
    | ok script =>
      rw [own, other] at written
      cases written
    | error error' =>
      obtain ⟨uri', localName', location', rfl⟩ := exists_unknownNamespace other
      rw [own, other] at written
      cases written
      exact .inr ⟨uri, localName, location, location', own, other⟩

end KeyholeMarkup.Script

namespace KeyholeMarkup.Schema
open KeyholeMarkup.Xml

def Issue.unplaced (issue : Issue) : Issue := { issue with location := none }

namespace Components

theorem attributeIssues_bare (type : EffectiveType) (element : Element) (path : String) :
    attributeIssues type element.bare path =
      (attributeIssues type element path).map Issue.unplaced := by
  have named (name : Name) : element.bare.attributeNamed? name = element.attributeNamed? name := by
    simp only [Element.attributeNamed?, Element.bare, Tag.bare, List.find?_map, Option.map_map]
    rfl
  have missing : missingAttributes type element.bare path =
      (missingAttributes type element path).map Issue.unplaced := by
    simp only [missingAttributes, named, List.map_map]
    rfl
  have undeclared : undeclaredAttributes type element.bare path =
      (undeclaredAttributes type element path).map Issue.unplaced := by
    simp only [undeclaredAttributes, Element.bare, Tag.bare, List.filter_map, List.map_map]
    rfl
  unfold attributeIssues
  cases type.content with
  | any => rfl
  | textOnly | particles => cases type.anyAttribute <;> simp [missing, undeclared]

/-- Issues without their positions, and the targets of the children with them. -/
def unplacedIssues {α : Type} (assessed : List Issue × α) : List Issue × α :=
  (assessed.1.map Issue.unplaced, assessed.2)

theorem map_name_bare (children : List Element) :
    (children.map Element.bare).map (·.name) = children.map (·.name) := by
  rw [List.map_map]
  rfl

section
variable (components : Components) (element : Element) (path : String)

theorem assessChild_bare (particles : List Particle) (child : Element) (childPath : String) :
    components.assessChild particles element.bare path child.bare childPath =
      unplacedIssues (components.assessChild particles element path child childPath) := by
  have name : child.bare.name = child.name := rfl
  unfold assessChild
  rw [name]
  cases particles.findSome? (components.admission child.name referenceDepth) with
  | none => rfl
  | some admission =>
    cases admission with
    | declared declaration | unresolved missing => rfl
    | wildcard strictness => cases strictness <;> rfl

theorem assessDeclared_bare (declaration : ElementDeclaration) :
    components.assessDeclared declaration element.bare path =
      unplacedIssues (components.assessDeclared declaration element path) := by
  unfold assessDeclared
  cases declaration.isAbstract with
  | true => rfl
  | false =>
    simp only [Bool.false_eq_true, if_false, attributeIssues_bare]
    have children : element.bare.content.elements = element.content.elements.map Element.bare :=
      Content.elements_bare _
    have missing : (components.typeOf referenceDepth declaration).missing.map (missingIssue path) =
        ((components.typeOf referenceDepth declaration).missing.map (missingIssue path)).map
          Issue.unplaced := by
      rw [List.map_map]
      rfl
    rw [children]
    generalize (components.typeOf referenceDepth declaration).result = type
    cases type.content with
    | any =>
      simp only [unplacedIssues, List.map_append, ← missing, List.map_map]
      rfl
    | textOnly =>
      simp only [unplacedIssues, List.map_append, ← missing, List.head?_map, Option.toList_map,
        List.map_map]
      rfl
    | particles particles =>
      have names := map_name_bare element.content.elements
      simp only [names, List.zip_map_left, List.map_map, Function.comp_def, Prod.map,
        assessChild_bare, unplacedIssues, List.map_append, ← missing, List.flatMap_map,
        List.map_flatMap, id]

theorem assess_bare (target : Target) :
    components.assess target element.bare path =
      unplacedIssues (components.assess target element path) := by
  have name : element.bare.name = element.name := rfl
  cases target with
  | declared declaration => exact assessDeclared_bare components element path declaration
  | skip => rfl
  | lax =>
    simp only [assess, name]
    cases components.elements.find? element.name with
    | some declaration => exact assessDeclared_bare components element path declaration
    | none =>
      simp only [Element.bare, Content.elements_bare, List.map_map]
      rfl

end

theorem visit_bare (components : Components) (targets : List (Target × String))
    (content : Content) :
    components.visit targets content.bare =
      (components.visit targets content).map Issue.unplaced := by
  induction content generalizing targets with
  | empty => cases targets <;> rfl
  | comment entry rest ih => simpa only [Content.bare, visit] using ih targets
  | element tag inner rest ihInner ihRest =>
    cases targets with
    | nil => rfl
    | cons next targets =>
      have assessed := assess_bare components ⟨tag, inner⟩ next.2 next.1
      simp only [Element.bare] at assessed
      simp only [Content.bare, visit, assessed, unplacedIssues, Content.elements_bare, map_name_bare,
        ihInner, ihRest, List.map_append]

theorem firstReports_unplaced (reported : List Violation) (issues : List Issue) :
    firstReports reported (issues.map Issue.unplaced) =
      (firstReports reported issues).map Issue.unplaced := by
  induction issues generalizing reported with
  | nil => rfl
  | cons issue issues ih =>
    rw [List.map_cons, firstReports_cons, firstReports_cons, ih, ih]
    change (if issue.violation.isUnresolved = true then
      if issue.violation ∈ reported then _ else _ else _) = _
    split
    · split <;> rfl
    · rfl

theorem issues_bare (components : Components) (document : Document) :
    components.issues document.bare = (components.issues document).map Issue.unplaced := by
  have name : document.bare.root.name = document.root.name := rfl
  simp only [issues, name]
  cases components.elements.find? document.root.name with
  | none => rfl
  | some declaration =>
    have visited := visit_bare components
      [(.declared declaration, "/" ++ document.root.name.localName)]
      (.element document.root.tag document.root.content .empty)
    exact (congrArg (firstReports []) visited).trans (firstReports_unplaced [] _)

end Components
end KeyholeMarkup.Schema

namespace KeyholeMarkup
open KeyholeMarkup.Geometry KeyholeMarkup.Schema KeyholeMarkup.Script KeyholeMarkup.Source
open KeyholeMarkup.Xml

/-- Documents that differ in their presentation alone have the same counts, the same polygons, the same
script for all builders, or the same element without a builder, and for all components the same
violations at the same paths, in order. -/
theorem results_of_same {first second : Document} (same : first.same second = true) :
    first.counts = second.counts ∧ polygons first = polygons second ∧
      (∀ builders, SameScript builders first second) ∧
      ∀ components : Components,
        (components.issues first).map (fun issue => (issue.violation, issue.path)) =
          (components.issues second).map fun issue => (issue.violation, issue.path) := by
  have bare := Document.same_iff.mp same
  refine ⟨?_, ?_, sameScript_of_bare bare, fun components => ?_⟩
  · rw [← Document.counts_bare first, bare, Document.counts_bare]
  · rw [← polygons_bare first, bare, polygons_bare]
  · have found : (components.issues first).map Issue.unplaced =
        (components.issues second).map Issue.unplaced := by
      rw [← Components.issues_bare, bare, Components.issues_bare]
    have read := congrArg (List.map fun issue => (issue.violation, issue.path)) found
    rw [List.map_map, List.map_map] at read
    exact read

/-- An element with an attribute, a comment and a child in one namespace, with these prefixes,
declarations and positions. -/
def respelled (own other : Option String) (declarations : List Declaration)
    (comment child behind stop : Nat) : Document :=
  ⟨[], ⟨⟨⟨some "u", "a"⟩, own, declarations, [⟨⟨some "u", "x"⟩, other, "1"⟩], none, some ⟨0, 0, stop⟩⟩,
    .comment ⟨"c", some ⟨0, comment, child⟩⟩
      (.element ⟨⟨some "u", "b"⟩, own, [], [], none, some ⟨0, child, behind⟩⟩ .empty .empty)⟩, []⟩

/-- Both spellings have the same results, and neither has a script with the standard builders. The
errors differ in the position. -/
theorem results_of_same_respelled :
    ∃ first second,
      Xml.parse 0 "<p:a xmlns:p='u' p:x='1'><!--c--><p:b/></p:a>" = .ok first ∧
      Xml.parse 0 "<a xmlns='u' xmlns:q='u' q:x='1'>\n<!--c--><b></b></a>" = .ok second ∧
      first.same second = true ∧ first.counts = [(some "u", [("a", 1), ("b", 1)])] ∧
      ofDocument .standard first = .error (.unknownNamespace "u" "a" (some ⟨0, 0, 45⟩)) ∧
      ofDocument .standard second = .error (.unknownNamespace "u" "a" (some ⟨0, 0, 53⟩)) ∧
      first.counts = second.counts ∧ polygons first = polygons second ∧
      (∀ builders, SameScript builders first second) ∧
      ∀ components : Components,
        (components.issues first).map (fun issue => (issue.violation, issue.path)) =
          (components.issues second).map fun issue => (issue.violation, issue.path) := by
  have same : (respelled (some "p") (some "p") [⟨some "p", "u"⟩] 25 33 39 45).same
      (respelled none (some "q") [⟨none, "u"⟩, ⟨some "q", "u"⟩] 34 42 49 53) = true :=
    Document.same_iff.mpr rfl
  exact ⟨_, _, by rfl, by rfl, same, by rfl, by rfl, by rfl, results_of_same same⟩

end KeyholeMarkup

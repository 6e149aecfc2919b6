import KeyholeMarkup.Proofs.Script.Feeding
import KeyholeMarkup.Proofs.Xml.Trace

/-! Documents for which there is no script. The first element in document order whose namespace has
no builder ends the writing; nothing else does. -/
namespace KeyholeMarkup.Script
open KeyholeMarkup.Xml

/-- The element of a tag is in a namespace, and none of the builders is for it. -/
def Builders.Lacks (builders : Builders) (tag : Tag) : Prop :=
  ∃ uri, tag.name.uri = some uri ∧ uri ≠ "" ∧ ∀ entry ∈ builders.entries, entry.uri ≠ uri

theorem Builders.resolve_eq_none_iff {builders : Builders} {uri : Option String} :
    builders.resolve uri = none ↔
      ∃ text, uri = some text ∧ text ≠ "" ∧ ∀ entry ∈ builders.entries, entry.uri ≠ text := by
  cases uri with
  | none => simp [resolve]
  | some text => by_cases empty : text = "" <;> simp [resolve, Option.filter_some, empty]

theorem Builders.refusalOf?_eq_none_iff {builders : Builders} {tag : Tag} :
    builders.refusalOf? tag = none ↔ ¬ builders.Lacks tag := by
  unfold Lacks refusalOf?
  rw [← resolve_eq_none_iff]
  cases builders.resolve tag.name.uri <;> simp

theorem Builders.refusalOf?_eq_some_iff {builders : Builders} {tag : Tag} {error : Error} :
    builders.refusalOf? tag = some error ↔ builders.Lacks tag ∧
      ∃ uri, tag.name.uri = some uri ∧
        error = .unknownNamespace uri tag.name.localName tag.span := by
  unfold Lacks refusalOf?
  cases resolved : builders.resolve tag.name.uri with
  | some builder => simp [← resolve_eq_none_iff, resolved]
  | none =>
    obtain ⟨uri, named, filled, unknown⟩ := resolve_eq_none_iff.mp resolved
    have same : Error.unknownNamespace (tag.name.uri.getD "") tag.name.localName tag.span =
        .unknownNamespace uri tag.name.localName tag.span := by rw [named, Option.getD_some]
    constructor
    · intro refused
      exact ⟨⟨uri, named, filled, unknown⟩, uri, named, (Option.some.inj refused).symm.trans same⟩
    · rintro ⟨-, other, stated, rfl⟩
      rw [named, Option.some.injEq] at stated
      exact congrArg some (stated ▸ same)

/-- A run ends with the first event that is refused, and otherwise is what feeding comes to. -/
theorem Emitter.run_eq (emitter : Emitter) (events : List Event) :
    emitter.run events =
      match events.findSome? emitter.builders.refusal? with
      | some error => .error error
      | none => .ok (emitter.feed events).1 := by
  induction events generalizing emitter with
  | nil => rfl
  | cons event events ih =>
    have takes := takes_emit emitter event
    rw [run, feed, List.findSome?_cons, ← takes.answer]
    generalize emitter.emit event = emitted at takes
    obtain ⟨after, answer⟩ := emitted
    cases answer with
    | some error => rfl
    | none =>
      have rest := ih after
      rw [takes.builders] at rest
      exact rest

/-- The openings of a walk come in document order. -/
theorem findSome?_events (builders : Builders) (content : Content) :
    content.events.findSome? builders.refusal? = content.tags.findSome? builders.refusalOf? := by
  induction content with
  | empty => rfl
  | comment entry rest ih =>
    rw [Content.events, Content.tags, List.findSome?_cons]
    exact ih
  | element tag inner rest ihInner ihRest =>
    rw [Content.events, Content.tags, List.cons_append, List.cons_append, List.findSome?_cons,
      List.findSome?_cons, List.findSome?_append, List.findSome?_append, List.findSome?_cons,
      ihInner, ihRest]
    rfl

theorem findSome?_comments (builders : Builders) (comments : List Comment) :
    (comments.map Event.comment).findSome? builders.refusal? = none := by
  simp [List.findSome?_eq_none_iff, Builders.refusal?]

theorem findSome?_document (builders : Builders) (document : Document) :
    document.events.findSome? builders.refusal? =
      document.root.tags.findSome? builders.refusalOf? := by
  have root : document.root.events.findSome? builders.refusal? =
      document.root.tags.findSome? builders.refusalOf? := by
    rw [Element.events, Element.tags, List.cons_append, List.findSome?_cons, List.findSome?_cons,
      List.findSome?_append, findSome?_events]
    simp [Builders.refusal?]
  rw [Document.events, List.findSome?_append, List.findSome?_append, findSome?_comments,
    findSome?_comments, root]
  simp

theorem ofDocument_of_refused {builders : Builders} {document : Document} {error : Error}
    (refused : document.root.tags.findSome? builders.refusalOf? = some error) :
    ofDocument builders document = .error error := by
  have ran := Emitter.run_eq (.start builders) document.events
  rw [show (Emitter.start builders).builders = builders from rfl, findSome?_document,
    refused] at ran
  rw [ofDocument, ofEvents, ran]
  rfl

theorem ofDocument_of_covered {builders : Builders} {document : Document}
    (covered : ∀ tag ∈ document.root.tags, ¬ builders.Lacks tag) :
    ∃ script, ofDocument builders document = .ok script := by
  refine ⟨_, ofDocument_eq_scriptText builders document fun tag member => ?_⟩
  have found := Builders.refusalOf?_eq_none_iff.mpr (covered tag member)
  unfold Builders.refusalOf? at found
  split at found
  · simp [*]
  · cases found

/-- There is no script exactly if an element lacks a builder, and the error is then that of the first
such element in document order. The document is written by the events of its walk. -/
theorem ofDocument_eq_error_iff (builders : Builders) (document : Document) :
    ofDocument builders document =
        ofEvents builders ((Walk.ofDocument document).trace.map (·.1)) ∧
      ((∃ error, ofDocument builders document = .error error) ↔
        ∃ tag ∈ document.root.tags, builders.Lacks tag) ∧
      (∀ error, ofDocument builders document = .error error →
        error ≠ .noRootElement ∧ ∃ before tag later uri,
          document.root.tags = before ++ tag :: later ∧
          (∀ other ∈ before, ¬ builders.Lacks other) ∧ builders.Lacks tag ∧
          tag.name.uri = some uri ∧
          error = .unknownNamespace uri tag.name.localName tag.span) ∧
      ((∀ tag ∈ document.root.tags, ¬ builders.Lacks tag) →
        ∃ script, ofDocument builders document = .ok script) := by
  have walked : ofDocument builders document =
      ofEvents builders ((Walk.ofDocument document).trace.map (·.1)) := by
    rw [Walk.map_trace, Walk.events_ofDocument, ofDocument]
  cases found : document.root.tags.findSome? builders.refusalOf? with
  | none =>
    have covered : ∀ tag ∈ document.root.tags, ¬ builders.Lacks tag := fun tag member =>
      Builders.refusalOf?_eq_none_iff.mp (List.findSome?_eq_none_iff.mp found tag member)
    obtain ⟨script, written⟩ := ofDocument_of_covered covered
    refine ⟨walked, ⟨?_, ?_⟩, ?_, fun _ => ⟨script, written⟩⟩
    · rintro ⟨error, failed⟩
      rw [written] at failed
      cases failed
    · rintro ⟨tag, member, lacks⟩
      exact absurd lacks (covered tag member)
    · intro error failed
      rw [written] at failed
      cases failed
  | some refusal =>
    have failed := ofDocument_of_refused found
    obtain ⟨before, tag, later, split, refused, covered⟩ := List.findSome?_eq_some_iff.mp found
    obtain ⟨lacks, uri, named, same⟩ := Builders.refusalOf?_eq_some_iff.mp refused
    have member : tag ∈ document.root.tags := by simp [split]
    refine ⟨walked, ⟨fun _ => ⟨tag, member, lacks⟩, fun _ => ⟨refusal, failed⟩⟩, ?_, ?_⟩
    · intro error other
      obtain rfl : refusal = error := Except.error.inj (failed.symm.trans other)
      refine ⟨by simp [same], before, tag, later, uri, split, ?_, lacks, named, same⟩
      exact fun other member => Builders.refusalOf?_eq_none_iff.mp (covered other member)
    · exact fun all => absurd lacks (all tag member)

end KeyholeMarkup.Script

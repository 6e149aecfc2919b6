import KeyholeMarkup.Xml.Walk

/-! The walk visits the events of the document. What is left of a walk is a list of events, and
every step takes the first of them. -/
namespace KeyholeMarkup.Xml

namespace Walk

/-- The events still to come inside the open elements, innermost first. -/
def pathEvents (path : List (Element × Content)) : List Event :=
  path.flatMap fun (element, rest) => rest.events ++ [.closed element]

/-- All events still to come. -/
def events (walk : Walk) : List Event :=
  walk.leading.map .comment ++ (walk.root.elim [] Element.events) ++ pathEvents walk.path ++
    walk.trailing.map .comment

/-- A step takes the first event of those to come, and there is no step only after all of them. -/
theorem events_eq (walk : Walk) : walk.events =
    match walk.next? with
    | some (event, after) => event :: after.events
    | none => [] := by
  obtain ⟨leading, root, path, trailing⟩ := walk
  cases leading with
  | cons comment leading => rfl
  | nil =>
  cases root with
  | some root => simp [events, next?, pathEvents, Element.events]
  | none =>
  cases path with
  | cons frame path =>
    obtain ⟨element, content⟩ := frame
    cases content <;> simp [events, next?, pathEvents, Content.events]
  | nil => cases trailing <;> rfl

theorem map_trace (walk : Walk) : walk.trace.map (·.1) = walk.events := by
  fun_induction trace walk with
  | case1 walk event after found _ ih =>
    rw [events_eq, found]
    exact congrArg (event :: ·) ih
  | case2 walk ended =>
    rw [events_eq, ended]
    rfl

theorem events_ofDocument (document : Document) : (ofDocument document).events = document.events := by
  simp [events, ofDocument, pathEvents, Document.events]

end Walk
end KeyholeMarkup.Xml

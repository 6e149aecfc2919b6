import KeyholeMarkup.Proofs.Xml.Stream

/-! Walks step by step. However many steps a walk has taken, what it yields next is the event in that
place of the traversal of the tree, and as many elements are open as have been opened and not closed. -/
namespace KeyholeMarkup.Xml

def Event.opens : Event → Bool
  | .opened _ => true
  | _ => false

def Event.closes : Event → Bool
  | .closed _ => true
  | _ => false

def openings (events : List Event) : Nat := events.countP Event.opens

def closings (events : List Event) : Nat := events.countP Event.closes

theorem openings_append (first second : List Event) :
    openings (first ++ second) = openings first + openings second := List.countP_append

theorem closings_append (first second : List Event) :
    closings (first ++ second) = closings first + closings second := List.countP_append

theorem openings_comments (comments : List Comment) : openings (comments.map .comment) = 0 := by
  simp [openings, Event.opens]

theorem closings_comments (comments : List Comment) : closings (comments.map .comment) = 0 := by
  simp [closings, Event.closes]

namespace Walk

/-- The walk after a number of steps. A walk that has ended stays as it is. -/
def after : Nat → Walk → Walk
  | 0, walk => walk
  | count + 1, walk =>
    match walk.next? with
    | some (_, next) => after count next
    | none => after count walk

/-- What a number of steps yield. -/
def yielded : Nat → Walk → List Event
  | 0, _ => []
  | count + 1, walk =>
    match walk.next? with
    | some (event, next) => event :: yielded count next
    | none => yielded count walk

theorem events_after (walk : Walk) (count : Nat) : (walk.after count).events = walk.events.drop count := by
  induction count generalizing walk with
  | zero => rfl
  | succ count ih =>
    have left := walk.events_eq
    rw [after]
    cases step : walk.next? with
    | none =>
      rw [step] at left
      simp only [ih, left, List.drop_nil]
    | some result =>
      obtain ⟨event, next⟩ := result
      rw [step] at left
      simp only [ih, left, List.drop_succ_cons]

theorem yielded_eq_take (walk : Walk) (count : Nat) : walk.yielded count = walk.events.take count := by
  induction count generalizing walk with
  | zero => rfl
  | succ count ih =>
    have left := walk.events_eq
    rw [yielded]
    cases step : walk.next? with
    | none =>
      rw [step] at left
      simp only [ih, left, List.take_nil]
    | some result =>
      obtain ⟨event, next⟩ := result
      rw [step] at left
      simp only [ih, left, List.take_succ_cons]

theorem map_next? (walk : Walk) : walk.next?.map (·.1) = walk.events.head? := by
  rw [walk.events_eq]
  cases walk.next? <;> rfl

/-- A step into an element or out of it is a step of the depth as well. -/
theorem depth_next? {walk next : Walk} {event : Event} (step : walk.next? = some (event, next)) :
    next.depth + closings [event] = walk.depth + openings [event] := by
  obtain ⟨leading, root, path, trailing⟩ := walk
  cases leading with
  | cons comment leading =>
    cases step
    rfl
  | nil =>
  cases root with
  | some root =>
    cases step
    rfl
  | none =>
  cases path with
  | cons frame path =>
    obtain ⟨element, content⟩ := frame
    cases content <;> (cases step; rfl)
  | nil =>
    cases trailing with
    | cons comment trailing =>
      cases step
      rfl
    | nil => cases step

theorem depth_after (walk : Walk) (count : Nat) :
    (walk.after count).depth + closings (walk.yielded count) =
      walk.depth + openings (walk.yielded count) := by
  induction count generalizing walk with
  | zero => rfl
  | succ count ih =>
    rw [after, yielded]
    cases step : walk.next? with
    | none => exact ih walk
    | some result =>
      obtain ⟨event, next⟩ := result
      have first := depth_next? step
      have rest := ih next
      have opened := openings_append [event] (next.yielded count)
      have closed := closings_append [event] (next.yielded count)
      rw [List.singleton_append] at opened closed
      simp only [opened, closed]
      omega

end Walk

/-- Every closing has its opening before it, and every opening its closing behind it. -/
structure Balanced (events : List Event) : Prop where
  total : closings events = openings events
  before : ∀ count, closings (events.take count) ≤ openings (events.take count)

theorem Balanced.append {first second : List Event} (balanced : Balanced first)
    (balanced' : Balanced second) : Balanced (first ++ second) := by
  refine ⟨?_, fun count => ?_⟩
  · rw [openings_append, closings_append, balanced.total, balanced'.total]
  · rw [List.take_append, openings_append, closings_append]
    exact Nat.add_le_add (balanced.before _) (balanced'.before _)

theorem balanced_nil : Balanced [] := ⟨rfl, fun _ => by simp [openings, closings]⟩

theorem balanced_comment (entry : Comment) : Balanced [.comment entry] := by
  refine ⟨rfl, fun count => ?_⟩
  cases count <;> simp [openings, closings, Event.opens, Event.closes]

/-- The events of an element with these events inside it. -/
def Element.around (element : Element) (events : List Event) : List Event :=
  .opened element :: events ++ [.closed element]

theorem Element.around_eq (element : Element) (events : List Event) :
    element.around events = [.opened element] ++ (events ++ [.closed element]) := rfl

section
variable {events : List Event} (balanced : Balanced events) (element : Element)
include balanced

/-- Behind the opening of an element and up to its closing more has been opened than closed. -/
theorem Balanced.inside {count : Nat} (bounded : count ≤ events.length) :
    closings ((element.around events).take (count + 1)) <
      openings ((element.around events).take (count + 1)) := by
  have part : (element.around events).take (count + 1) = [.opened element] ++ events.take count := by
    rw [element.around_eq, List.singleton_append, List.take_succ_cons,
      List.take_append_of_le_length bounded, List.singleton_append]
  rw [part, openings_append, closings_append]
  have before := balanced.before count
  have opened : openings [.opened element] = 1 ∧ closings [.opened element] = 0 := ⟨rfl, rfl⟩
  omega

theorem Balanced.enclosed : Balanced (element.around events) := by
  have whole : closings (element.around events) = openings (element.around events) := by
    rw [element.around_eq, openings_append, openings_append, closings_append, closings_append,
      balanced.total]
    have opened : openings [.opened element] = 1 ∧ closings [.opened element] = 0 := ⟨rfl, rfl⟩
    have closed : openings [.closed element] = 0 ∧ closings [.closed element] = 1 := ⟨rfl, rfl⟩
    omega
  refine ⟨whole, fun count => ?_⟩
  rcases Nat.lt_or_ge (events.length + 1) count with past | within
  · have size : (element.around events).length = events.length + 2 := by simp [element.around_eq]
    rw [List.take_of_length_le (by omega)]
    exact Nat.le_of_eq whole
  · cases count with
    | zero => exact Nat.le_refl _
    | succ count => exact Nat.le_of_lt (balanced.inside element (Nat.le_of_succ_le_succ within))

end

theorem Content.balanced_events (content : Content) : Balanced content.events := by
  induction content with
  | empty => exact balanced_nil
  | comment entry rest ih => exact (balanced_comment entry).append ih
  | element tag inner rest ihInner ihRest =>
    have whole := (ihInner.enclosed ⟨tag, inner⟩).append ihRest
    rw [Element.around_eq, List.append_assoc, List.append_assoc] at whole
    exact whole

/-- The events of an element are its opening, those of its children in order, and its closing. -/
theorem Element.events_eq (element : Element) :
    element.events =
      .opened element :: element.content.nodes.flatMap Node.events ++ [.closed element] := by
  rw [← Content.events_ofNodes, Content.ofNodes_nodes]
  rfl

/-- A walk that yields the comments before the root, the events of the root and the comments after it,
and then nothing for good. Its depth counts the elements that have been opened and not closed, so it
is zero up to the opening of the root and again from its closing on. -/
structure Walk.Traverses (walk : Walk) (document : Document) : Prop where
  yields : ∀ count, (walk.after count).next?.map (·.1) =
    (document.leading.map .comment ++ document.root.events ++
      document.trailing.map .comment)[count]?
  depth : ∀ count, (walk.after count).depth + closings (walk.yielded count) =
    openings (walk.yielded count)
  outside : ∀ count, (walk.after count).depth = 0 ↔
    count ≤ document.leading.length ∨
      document.leading.length + document.root.events.length ≤ count

theorem Document.closings_eq_iff (document : Document) (count : Nat) :
    closings (document.events.take count) = openings (document.events.take count) ↔
      count ≤ document.leading.length ∨
        document.leading.length + document.root.events.length ≤ count := by
  have inner := document.root.content.balanced_events
  rw [Document.events, List.take_append, List.take_append, List.length_append, List.length_map,
    ← List.map_take, ← List.map_take]
  simp only [openings_append, closings_append, openings_comments, closings_comments, Nat.zero_add,
    Nat.add_zero]
  rcases Nat.lt_or_ge document.leading.length count with behind | before
  case inr =>
    -- Up to the root there are comments only.
    have none : count - document.leading.length = 0 := Nat.sub_eq_zero_of_le before
    simp [none, before, openings, closings]
  obtain ⟨inside, split⟩ := Nat.exists_eq_add_of_lt behind
  have position : count - document.leading.length = inside + 1 := by omega
  rw [position]
  have size : document.root.events.length = document.root.content.events.length + 2 := by
    simp [Element.events]
  rcases Nat.lt_or_ge document.root.content.events.length inside with beyond | within
  -- Its closing makes up for its opening, which is ahead all the way between them.
  · rw [List.take_of_length_le (by omega)]
    exact iff_of_true (inner.enclosed document.root).total (.inr (by omega))
  · refine iff_of_false ?_ (by omega)
    exact Nat.ne_of_lt (inner.inside document.root within)

theorem Walk.traverses_ofDocument (document : Document) :
    (Walk.ofDocument document).Traverses document := by
  have depth (count : Nat) := (Walk.ofDocument document).depth_after count
  have start : (Walk.ofDocument document).depth = 0 := rfl
  simp only [start, Nat.zero_add] at depth
  refine ⟨fun count => ?_, depth, fun count => ?_⟩
  · rw [map_next?, events_after, events_ofDocument, List.head?_drop]
    rfl
  · rw [← document.closings_eq_iff count, ← events_ofDocument, ← yielded_eq_take]
    have counted := depth count
    omega

/-- A walk through a document follows the recursion over its tree at every step, and so does a walk
through any element by itself, without the comments beside the root. -/
theorem Walk.traverses :
    (∀ document : Document, (Walk.ofDocument document).Traverses document) ∧
    (∀ element : Element, (Walk.ofElement element).Traverses ⟨[], element, []⟩) ∧
    (∀ element : Element, element.events =
      .opened element :: element.content.nodes.flatMap Node.events ++ [.closed element]) :=
  ⟨traverses_ofDocument, fun element => traverses_ofDocument ⟨[], element, []⟩, Element.events_eq⟩

end KeyholeMarkup.Xml

import KeyholeMarkup.Xml.Document

/-! Documents as streams of events. An element opens, its content follows, and it closes. The
events are given for the whole tree at once and, by `Walk`, one after the other. -/
namespace KeyholeMarkup.Xml

inductive Event
  | opened (element : Element)
  | closed (element : Element)
  | comment (comment : Comment)
deriving DecidableEq, Repr

def Content.events : Content → List Event
  | .empty => []
  | .comment c rest => .comment c :: rest.events
  | .element tag inner rest =>
    .opened ⟨tag, inner⟩ :: inner.events ++ .closed ⟨tag, inner⟩ :: rest.events

def Element.events (element : Element) : List Event :=
  .opened element :: element.content.events ++ [.closed element]

def Document.events (document : Document) : List Event :=
  document.leading.map .comment ++ document.root.events ++ document.trailing.map .comment

/-- What is left of a walk: comments before the root, the root unless it has been entered, the open
elements with the content still to visit, innermost first, and comments after the root. -/
structure Walk where
  leading : List Comment
  root : Option Element
  path : List (Element × Content)
  trailing : List Comment

namespace Walk

def ofDocument (document : Document) : Walk :=
  ⟨document.leading, some document.root, [], document.trailing⟩

def ofElement (element : Element) : Walk := ⟨[], some element, [], []⟩

def depth (walk : Walk) : Nat := walk.path.length

def next? (walk : Walk) : Option (Event × Walk) :=
  match walk.leading with
  | comment :: rest => some (.comment comment, { walk with leading := rest })
  | [] =>
    match walk.root with
    | some root =>
      some (.opened root, { walk with root := none, path := [(root, root.content)] ++ walk.path })
    | none =>
      match walk.path with
      | (element, .empty) :: outer => some (.closed element, { walk with path := outer })
      | (element, .comment comment rest) :: outer =>
        some (.comment comment, { walk with path := (element, rest) :: outer })
      | (element, .element tag inner rest) :: outer =>
        some (.opened ⟨tag, inner⟩,
          { walk with path := (⟨tag, inner⟩, inner) :: (element, rest) :: outer })
      | [] =>
        match walk.trailing with
        | comment :: rest => some (.comment comment, { walk with trailing := rest })
        | [] => none

/-- A bound on the number of events left. -/
def remaining (walk : Walk) : Nat :=
  walk.leading.length + (walk.root.map fun root => 2 * root.content.size + 2).getD 0 +
    Content.totalSteps (walk.path.map (·.2)) + walk.trailing.length

theorem remaining_next? (walk after : Walk) (event : Event) (h : walk.next? = some (event, after)) :
    after.remaining < walk.remaining := by
  obtain ⟨leading, root, path, trailing⟩ := walk
  simp only [next?] at h
  split at h
  · simp only [Option.some.injEq, Prod.mk.injEq] at h
    obtain ⟨_, rfl⟩ := h
    simp only [remaining, List.length_cons]
    omega
  · split at h
    · simp only [Option.some.injEq, Prod.mk.injEq] at h
      obtain ⟨_, rfl⟩ := h
      simp only [remaining, Option.map_none, Option.getD_none, Option.map_some, Option.getD_some,
        List.cons_append, List.nil_append, List.map_cons, Content.totalSteps]
      omega
    · split at h
      all_goals first
        | (simp only [Option.some.injEq, Prod.mk.injEq] at h
           obtain ⟨_, rfl⟩ := h
           simp only [remaining, List.map_cons, Content.totalSteps, Content.size]
           omega)
        | skip
      split at h
      · simp only [Option.some.injEq, Prod.mk.injEq] at h
        obtain ⟨_, rfl⟩ := h
        simp only [remaining, List.length_cons]
        omega
      · simp at h

/-- All further events, each with the depth after it. -/
def trace (walk : Walk) : List (Event × Nat) :=
  match h : walk.next? with
  | some (event, after) =>
    have := remaining_next? walk after event h
    (event, after.depth) :: trace after
  | none => []
termination_by walk.remaining

end Walk

end KeyholeMarkup.Xml

import KeyholeMarkup.Schema.Table

/-! Searching substitution groups. A group lists its members by name, and a member may have a group of
its own; the groups may go round in a circle. -/
namespace KeyholeMarkup.Schema
open KeyholeMarkup.Xml

/-- A search for a member of a substitution group, directly or through other groups: the names still
to be visited, the next one first, and those that have been visited. -/
structure MemberSearch where
  pending : List Name
  visited : List Name

namespace MemberSearch

/-- One round of a search: its answer, or the search that goes on. A name is visited once, so that a
circle of groups comes to an end. -/
def round (groups : Table (List Name)) (member : Name) (search : MemberSearch) :
    Bool ⊕ MemberSearch :=
  match search.pending with
  | [] => .inl false
  | head :: pending =>
    if search.visited.contains head then .inr ⟨pending, search.visited⟩
    else
      match groups.find? head with
      | none => .inr ⟨pending, head :: search.visited⟩
      | some members =>
        if members.contains member then .inl true
        else .inr ⟨members.reverse ++ pending, head :: search.visited⟩

/-- The number of members that names which have not been visited list. -/
def unvisited (visited : List Name) : Table (List Name) → Nat
  | [] => 0
  | (head, members) :: groups =>
    (if visited.contains head then 0 else members.length) + unvisited visited groups

/-- A bound on the number of rounds that go on. -/
def remaining (groups : Table (List Name)) (search : MemberSearch) : Nat :=
  search.pending.length + unvisited search.visited groups

/-- The members of a group; a name without a group has none. -/
def listed (groups : Table (List Name)) (head : Name) : List Name := (groups.find? head).getD []

theorem round_cons (groups : Table (List Name)) (member head : Name) (pending visited : List Name) :
    round groups member ⟨head :: pending, visited⟩ =
      if visited.contains head then .inr ⟨pending, visited⟩
      else if (listed groups head).contains member then .inl true
      else .inr ⟨(listed groups head).reverse ++ pending, head :: visited⟩ := by
  cases found : groups.find? head <;> simp [round, listed, found]

theorem unvisited_cons_le (groups : Table (List Name)) (head : Name) (visited : List Name) :
    unvisited (head :: visited) groups ≤ unvisited visited groups := by
  induction groups with
  | nil => exact Nat.le_refl _
  | cons entry groups ih =>
    obtain ⟨key, members⟩ := entry
    simp only [unvisited, List.contains_cons]
    cases visited.contains key <;> cases key == head <;> simp <;> omega

theorem unvisited_add_listed_le (groups : Table (List Name)) {head : Name} {visited : List Name}
    (unseen : ¬ visited.contains head) :
    unvisited (head :: visited) groups + (listed groups head).length ≤ unvisited visited groups := by
  induction groups with
  | nil => exact Nat.le_refl _
  | cons entry groups ih =>
    obtain ⟨key, members⟩ := entry
    have rest := unvisited_cons_le groups head visited
    by_cases same : key = head
    · simp only [unvisited, listed, Table.find?, same, if_pos, List.contains_cons, beq_self_eq_true,
        Bool.true_or, if_neg unseen, Option.getD_some]
      omega
    · simp only [unvisited, listed, Table.find?, if_neg same, List.contains_cons,
        beq_false_of_ne same, Bool.false_or] at ih ⊢
      omega

theorem remaining_round {groups : Table (List Name)} {member : Name} {search next : MemberSearch}
    (goesOn : search.round groups member = .inr next) :
    next.remaining groups < search.remaining groups := by
  obtain ⟨pending, visited⟩ := search
  cases pending with
  | nil => cases goesOn
  | cons head pending =>
    rw [round_cons] at goesOn
    split at goesOn
    · cases goesOn
      simp [remaining]
    rename_i unseen
    have fewer := unvisited_add_listed_le groups unseen
    split at goesOn
    · cases goesOn
    · cases goesOn
      simp only [remaining, List.length_append, List.length_reverse, List.length_cons]
      omega

/-- Whether the search comes upon the member. -/
def answer (groups : Table (List Name)) (member : Name) (search : MemberSearch) : Bool :=
  match _h : search.round groups member with
  | .inl found => found
  | .inr next => answer groups member next
termination_by search.remaining groups
decreasing_by exact remaining_round _h

end MemberSearch

end KeyholeMarkup.Schema

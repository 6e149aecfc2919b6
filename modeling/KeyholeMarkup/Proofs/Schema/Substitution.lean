import KeyholeMarkup.Schema.Components

/-! Substitution groups. The search visits a name once, and whatever the visited names list is visited
or waiting; so it comes upon exactly the members that any chain of groups leads to. -/
namespace KeyholeMarkup.Schema
open KeyholeMarkup.Xml

/-- A name that is a member of the group of a head, or of the group of another such member. -/
inductive Joins (groups : Table (List Name)) (heads : List Name) : Name → Prop
  | direct {head members member} : head ∈ heads → groups.find? head = some members →
    member ∈ members → Joins groups heads member
  | through {middle members member} : Joins groups heads middle →
    groups.find? middle = some members → member ∈ members → Joins groups heads member

namespace MemberSearch
variable {groups : Table (List Name)} {member : Name} {search next : MemberSearch}

theorem mem_listed_iff {head name : Name} :
    name ∈ listed groups head ↔ ∃ members, groups.find? head = some members ∧ name ∈ members := by
  unfold listed
  cases groups.find? head <;> simp

end MemberSearch

namespace Joins
open MemberSearch
variable {groups : Table (List Name)} {heads heads' : List Name} {head member : Name}

theorem of_head (waiting : head ∈ heads) (inside : member ∈ listed groups head) :
    Joins groups heads member := by
  obtain ⟨members, found, inside⟩ := mem_listed_iff.mp inside
  exact .direct waiting found inside

theorem of_member (joins : Joins groups heads head) (inside : member ∈ listed groups head) :
    Joins groups heads member := by
  obtain ⟨members, found, inside⟩ := mem_listed_iff.mp inside
  exact .through joins found inside

/-- Every name that is joined is listed by one of the heads or by another name that is joined. -/
theorem exists_listing (joins : Joins groups heads member) :
    ∃ head, (head ∈ heads ∨ Joins groups heads head) ∧ member ∈ listed groups head := by
  cases joins with
  | direct waiting found inside => exact ⟨_, .inl waiting, mem_listed_iff.mpr ⟨_, found, inside⟩⟩
  | through joins found inside => exact ⟨_, .inr joins, mem_listed_iff.mpr ⟨_, found, inside⟩⟩

theorem not_joins_nil : ¬ Joins groups [] member := by
  intro joins
  induction joins with
  | direct waiting _ _ => exact List.not_mem_nil waiting
  | through _ _ _ ih => exact ih

/-- What the heads list stays within any names that list only each other. -/
theorem closed {kept : Name → Prop} (start : ∀ head ∈ heads, kept head)
    (step : ∀ head, kept head → ∀ name ∈ listed groups head, kept name)
    (joins : Joins groups heads member) : kept member := by
  induction joins with
  | direct waiting found inside =>
    exact step _ (start _ waiting) _ (mem_listed_iff.mpr ⟨_, found, inside⟩)
  | through _ found inside ih => exact step _ ih _ (mem_listed_iff.mpr ⟨_, found, inside⟩)

theorem mono (within : ∀ head ∈ heads, head ∈ heads' ∨ Joins groups heads' head)
    (joins : Joins groups heads member) : Joins groups heads' member := by
  obtain ⟨head, reached, inside⟩ := joins.exists_listing
  have reached' : head ∈ heads' ∨ Joins groups heads' head := by
    rcases reached with waiting | joins
    · exact within head waiting
    · refine joins.closed within fun other known name inside => .inr ?_
      exact known.elim (of_head · inside) (of_member · inside)
  exact reached'.elim (of_head · inside) (of_member · inside)

end Joins

namespace MemberSearch
variable {groups : Table (List Name)} {member : Name} {search next : MemberSearch}

/-- What a visited name lists is visited or waiting, and the member searched for is not in it. -/
def Settled (groups : Table (List Name)) (member : Name) (search : MemberSearch) : Prop :=
  ∀ head ∈ search.visited, member ∉ listed groups head ∧
    ∀ name ∈ listed groups head, name ∈ search.visited ∨ name ∈ search.pending

/-- A chain from the visited names leads to the member only by way of the waiting ones. -/
theorem Settled.joins_pending (settled : search.Settled groups member)
    (joins : Joins groups (search.visited ++ search.pending) member) :
    Joins groups search.pending member := by
  let reached (name : Name) : Prop :=
    name ∈ search.visited ∨ name ∈ search.pending ∨ Joins groups search.pending name
  have step (head : Name) (known : reached head) (name : Name) (inside : name ∈ listed groups head) :
      reached name := by
    rcases known with visited | waiting | joined
    · exact ((settled head visited).2 name inside).imp_right .inl
    · exact .inr (.inr (.of_head waiting inside))
    · exact .inr (.inr (.of_member joined inside))
  have start (head : Name) (known : head ∈ search.visited ++ search.pending) : reached head :=
    (List.mem_append.mp known).imp_right .inl
  obtain ⟨head, known, inside⟩ := joins.exists_listing
  have known : reached head := known.elim (start head) (Joins.closed start step)
  rcases known with visited | waiting | joined
  · exact absurd inside (settled head visited).1
  · exact .of_head waiting inside
  · exact .of_member joined inside

/-- A round that goes on leaves a search for the same members. -/
theorem Settled.round (settled : search.Settled groups member)
    (goesOn : search.round groups member = .inr next) :
    next.Settled groups member ∧
      (Joins groups search.pending member ↔ Joins groups next.pending member) := by
  obtain ⟨pending, visited⟩ := search
  cases pending with
  | nil => cases goesOn
  | cons head pending =>
    rw [round_cons] at goesOn
    split at goesOn
    · -- What the head lists is visited or waits behind it already.
      rename_i seen
      cases goesOn
      have seen : head ∈ visited := List.contains_iff_mem.mp seen
      have after : Settled groups member ⟨pending, visited⟩ := by
        intro other known
        refine ⟨(settled other known).1, fun name inside => ?_⟩
        rcases (settled other known).2 name inside with known | waiting
        · exact .inl known
        · rcases List.mem_cons.mp waiting with rfl | waiting
          · exact .inl seen
          · exact .inr waiting
      refine ⟨after, fun joins => after.joins_pending (joins.mono fun other waiting => .inl ?_),
        fun joins => joins.mono fun other waiting => .inl (List.mem_cons_of_mem _ waiting)⟩
      rcases List.mem_cons.mp waiting with rfl | waiting
      · exact List.mem_append_left _ seen
      · exact List.mem_append_right _ waiting
    · split at goesOn
      · cases goesOn
      -- The members of the head wait in its place.
      rename_i missing
      cases goesOn
      have after : Settled groups member
          ⟨(listed groups head).reverse ++ pending, head :: visited⟩ := by
        intro other known
        rcases List.mem_cons.mp known with rfl | known
        · exact ⟨fun inside => missing (List.contains_iff_mem.mpr inside),
            fun name inside => .inr (List.mem_append_left _ (List.mem_reverse.mpr inside))⟩
        · refine ⟨(settled other known).1, fun name inside => ?_⟩
          rcases (settled other known).2 name inside with known | waiting
          · exact .inl (List.mem_cons_of_mem _ known)
          · rcases List.mem_cons.mp waiting with rfl | waiting
            · exact .inl List.mem_cons_self
            · exact .inr (List.mem_append_right _ waiting)
      refine ⟨after, fun joins => after.joins_pending (joins.mono fun other waiting => .inl ?_),
        fun joins => joins.mono fun other waiting => ?_⟩
      · rcases List.mem_cons.mp waiting with rfl | waiting
        · exact List.mem_append_left _ List.mem_cons_self
        · exact List.mem_append_right _ (List.mem_append_right _ waiting)
      · rcases List.mem_append.mp waiting with first | later
        · exact .inr (.of_head List.mem_cons_self (List.mem_reverse.mp first))
        · exact .inl (List.mem_cons_of_mem _ later)

theorem round_eq_inl {found : Bool} (ends : search.round groups member = .inl found) :
    found = true ↔ Joins groups search.pending member := by
  obtain ⟨pending, visited⟩ := search
  cases pending with
  | nil =>
    cases ends
    exact iff_of_false Bool.false_ne_true Joins.not_joins_nil
  | cons head pending =>
    rw [round_cons] at ends
    split at ends
    · cases ends
    split at ends
    · rename_i inside
      cases ends
      exact iff_of_true rfl (.of_head List.mem_cons_self (List.contains_iff_mem.mp inside))
    · cases ends

theorem answer_iff (settled : search.Settled groups member) :
    search.answer groups member = true ↔ Joins groups search.pending member := by
  fun_induction answer groups member search with
  | case1 search found ends => exact round_eq_inl ends
  | case2 search next goesOn ih =>
    obtain ⟨after, same⟩ := settled.round goesOn
    rw [same, ih after]

end MemberSearch

namespace Components

/-- The search comes upon a member exactly if a chain of groups leads to it. -/
theorem substitutesFor_iff (components : Components) (member head : Name) :
    components.substitutesFor member head = true ↔
      Joins components.substitutions [head] member :=
  MemberSearch.answer_iff fun _ visited => absurd visited List.not_mem_nil

end Components
end KeyholeMarkup.Schema

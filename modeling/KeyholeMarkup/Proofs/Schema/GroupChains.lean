import KeyholeMarkup.Proofs.Schema.GroupMembers
import Mathlib.Data.List.Chain

/-! Chains of substitution groups. The search for a member ends after a number of rounds that the
groups bound, and it finds exactly the names at the end of a chain in which each name is listed by the
one before it. -/
namespace KeyholeMarkup.Schema
open KeyholeMarkup.Xml

namespace MemberSearch
variable (groups : Table (List Name)) (member : Name)

/-- A search after some rounds: its answer, if it has come to one, or what is left of it. -/
def after : Nat → MemberSearch → Bool ⊕ MemberSearch
  | 0, search => .inr search
  | rounds + 1, search =>
    match search.round groups member with
    | .inl found => .inl found
    | .inr next => after rounds next

/-- Every search comes to its answer. -/
theorem exists_after (search : MemberSearch) :
    ∃ rounds ≤ search.remaining groups + 1,
      after groups member rounds search = .inl (search.answer groups member) := by
  fun_induction answer groups member search with
  | case1 search found ends =>
    refine ⟨1, Nat.le_add_left 1 _, ?_⟩
    rw [after, ends]
  | case2 search next goesOn ih =>
    obtain ⟨rounds, bounded, ends⟩ := ih
    have fewer := remaining_round goesOn
    refine ⟨rounds + 1, by omega, ?_⟩
    rw [after, goesOn]
    exact ends

end MemberSearch

/-- Some names in a row, each of them listed by the one before it. -/
def Components.Chain (components : Components) (names : List Name) : Prop :=
  names.IsChain fun head member => member ∈ components.membersOf head

namespace Components
variable {components : Components} {head middle member : Name} {between : List Name}

theorem chain_pair : components.Chain [head, member] ↔ member ∈ components.membersOf head :=
  List.isChain_pair

theorem chain_concat : components.Chain (head :: (between ++ [middle]) ++ [member]) ↔
    components.Chain (head :: between ++ [middle]) ∧ member ∈ components.membersOf middle := by
  have split : head :: (between ++ [middle]) ++ [member] = head :: between ++ middle :: [member] := by
    simp
  rw [split, Chain, List.isChain_append_cons_cons]
  exact and_congr_right fun _ => and_iff_left (.singleton member)

/-- A name joins the group of a head exactly if it is at the end of a chain from there. -/
theorem joins_iff_exists_chain :
    Joins components.substitutions [head] member ↔
      ∃ between, components.Chain (head :: between ++ [member]) := by
  constructor
  · intro joins
    induction joins with
    | direct waiting found inside =>
      obtain rfl := List.mem_singleton.mp waiting
      exact ⟨[], chain_pair.mpr (MemberSearch.mem_listed_iff.mpr ⟨_, found, inside⟩)⟩
    | @through middle _ _ _ found inside ih =>
      obtain ⟨between, chain⟩ := ih
      have last := MemberSearch.mem_listed_iff.mpr ⟨_, found, inside⟩
      exact ⟨between ++ [middle], chain_concat.mpr ⟨chain, last⟩⟩
  · rintro ⟨between, chain⟩
    induction between using List.reverseRecOn generalizing member with
    | nil => exact .of_head List.mem_cons_self (chain_pair.mp chain)
    | append_singleton between middle ih =>
      obtain ⟨earlier, last⟩ := chain_concat.mp chain
      exact (ih earlier).of_member last

/-- Whether a name may stand in for another is settled after at most as many rounds as the groups list
members, and two more. It may exactly if a chain leads from the other one to it, in one step or in
several, so it may stand in for itself only by way of a circle. -/
theorem substitutesFor_iff_chain (components : Components) (member head : Name) :
    (∃ rounds ≤ MemberSearch.unvisited [] components.substitutions + 2,
      MemberSearch.after components.substitutions member rounds ⟨[head], []⟩ =
        .inl (components.substitutesFor member head)) ∧
    (components.substitutesFor member head = true ↔
      ∃ between : List Name, (head :: between ++ [member]).IsChain
        fun earlier later => later ∈ components.membersOf earlier) := by
  constructor
  · obtain ⟨rounds, bounded, ends⟩ :=
      MemberSearch.exists_after components.substitutions member ⟨[head], []⟩
    refine ⟨rounds, ?_, ends⟩
    simp only [MemberSearch.remaining, List.length_singleton] at bounded
    omega
  · rw [substitutesFor_iff]
    exact joins_iff_exists_chain

/-- In a circle of two groups each name may stand in for itself, the head of a single group may not. -/
example :
    (ofElements [⟨.plain "a", .unspecified, some (.plain "b"), false⟩,
      ⟨.plain "b", .unspecified, some (.plain "a"), false⟩]).substitutesFor
        (.plain "a") (.plain "a") = true ∧
    (ofElements [⟨.plain "a", .unspecified, some (.plain "b"), false⟩]).substitutesFor
      (.plain "b") (.plain "b") = false :=
  ⟨by cbv, by cbv⟩

end Components
end KeyholeMarkup.Schema

import KeyholeMarkup.OrderedMap
import Mathlib.Data.List.Nodup

/-! Maps as lists in the order of their keys. Setting the value of a key changes what is found for this
key and no other, and keeps the order, by which each key has one entry. -/
namespace KeyholeMarkup.OrderedMap

/-- Of two keys that differ, one is before the other and not the other way round. -/
structure IsOrder {α : Type} (before : α → α → Bool) : Prop where
  irrefl : ∀ key, before key key = false
  trans : ∀ {first second third}, before first second = true → before second third = true →
    before first third = true
  total : ∀ {first second}, first ≠ second → before first second = false →
    before second first = true

theorem IsOrder.ne {α : Type} {before : α → α → Bool} (order : IsOrder before) {first second : α}
    (less : before first second = true) : first ≠ second := by
  rintro rfl
  rw [order.irrefl] at less
  contradiction

theorem isOrder_textBefore : IsOrder textBefore where
  irrefl := fun text => decide_eq_false (String.lt_irrefl text)
  trans := by
    intro first second third left right
    simp only [textBefore, decide_eq_true_eq] at left right ⊢
    exact String.lt_trans left right
  total := by
    intro first second apart behind
    simp only [textBefore, decide_eq_true_eq, decide_eq_false_iff_not] at behind ⊢
    exact Std.lt_of_le_of_ne behind (Ne.symm apart)

variable {α β : Type}

def Ordered (before : α → α → Bool) (entries : List (α × β)) : Prop :=
  entries.Pairwise fun first second => before first.1 second.1 = true

variable [DecidableEq α] {before : α → α → Bool} {entries : List (α × β)}

/-- The sum of some numbers. -/
def total (numbers : List Nat) : Nat := numbers.foldr (· + ·) 0

theorem total_cons (number : Nat) (rest : List Nat) : total (number :: rest) = number + total rest := rfl

theorem total_append (first second : List Nat) :
    total (first ++ second) = total first + total second := by
  induction first with
  | nil => exact (Nat.zero_add _).symm
  | cons number first ih => rw [List.cons_append, total_cons, ih, total_cons, Nat.add_assoc]

@[simp] theorem find?_nil (key : α) : find? key ([] : List (α × β)) = none := rfl

theorem find?_cons (key other : α) (held : β) (rest : List (α × β)) :
    find? key ((other, held) :: rest) = if key = other then some held else find? key rest := by
  by_cases same : key = other
  · simp [find?, same]
  · simp [find?, same, Ne.symm same]

theorem find?_eq_none {key : α} (absent : ∀ entry ∈ entries, entry.1 ≠ key) :
    find? key entries = none := by
  simpa [find?] using absent

theorem mem_of_mem_set {key : α} {value : Option β → β} {entry : α × β}
    (member : entry ∈ set before key value entries) : entry.1 = key ∨ entry ∈ entries := by
  induction entries with
  | nil => exact .inl (congrArg Prod.fst (List.mem_singleton.mp member))
  | cons own rest ih =>
    rw [set] at member
    split at member
    · rename_i same
      rcases List.mem_cons.mp member with rfl | later
      · exact .inl same.symm
      · exact .inr (List.mem_cons_of_mem own later)
    · split at member
      · rcases List.mem_cons.mp member with rfl | later
        · exact .inl rfl
        · exact .inr later
      · rcases List.mem_cons.mp member with rfl | later
        · exact .inr List.mem_cons_self
        · exact (ih later).imp_right (List.mem_cons_of_mem own)

section
variable (order : IsOrder before) (ordered : Ordered before entries)
include order

theorem find?_of_before {key : α} (first : ∀ entry ∈ entries, before key entry.1 = true) :
    find? key entries = none :=
  find?_eq_none fun entry member => (order.ne (first entry member)).symm

include ordered

omit [DecidableEq α] in
theorem Ordered.nodup : (entries.map (·.1)).Nodup := by
  apply List.pairwise_map.mpr
  exact ordered.imp fun less => order.ne less

theorem Ordered.mem_iff {key : α} {value : β} :
    (key, value) ∈ entries ↔ find? key entries = some value := by
  induction entries with
  | nil => simp
  | cons entry rest ih =>
    obtain ⟨own, held⟩ := entry
    obtain ⟨first, later⟩ := List.pairwise_cons.mp ordered
    rw [find?_cons, List.mem_cons, ih later, Prod.mk.injEq]
    split
    · rename_i same
      have absent : find? key rest = none := by
        rw [same]
        exact find?_of_before order first
      rw [absent]
      simp [same, eq_comm]
    · rename_i apart
      simp [apart]

/-- What is found after a value has been set: the new value for its own key, and for any other key
what was found before. -/
theorem Ordered.find?_set (key other : α) (value : Option β → β) :
    find? other (set before key value entries) =
      if other = key then some (value (find? key entries)) else find? other entries := by
  induction entries with
  | nil => rw [set, find?_cons, find?_nil, find?_nil]
  | cons entry rest ih =>
    obtain ⟨own, held⟩ := entry
    obtain ⟨first, later⟩ := List.pairwise_cons.mp ordered
    rw [set]
    split
    · rename_i same
      subst same
      simp only [find?_cons, if_pos]
      split <;> rfl
    · rename_i apart
      split
      · rename_i less
        -- All keys that follow are behind this one, so the key was not there.
        have absent : find? key ((own, held) :: rest) = none := by
          apply find?_of_before order
          rintro entry (_ | ⟨_, member⟩)
          · exact less
          · exact order.trans less (first entry member)
        rw [find?_cons other key, absent]
      · rw [find?_cons, ih later, find?_cons key, if_neg apart, find?_cons other own]
        split
        · rename_i same
          rw [if_neg (same ▸ Ne.symm apart)]
        · rfl

theorem Ordered.set (key : α) (value : Option β → β) :
    Ordered before (set before key value entries) := by
  induction entries with
  | nil => exact List.pairwise_singleton _ _
  | cons own rest ih =>
    obtain ⟨first, later⟩ := List.pairwise_cons.mp ordered
    rw [OrderedMap.set]
    split
    · exact List.pairwise_cons.mpr ⟨first, later⟩
    · rename_i apart
      split
      · rename_i less
        apply List.pairwise_cons.mpr
        refine ⟨?_, ordered⟩
        rintro entry (_ | ⟨_, member⟩)
        · exact less
        · exact order.trans less (first entry member)
      · rename_i behind
        apply List.pairwise_cons.mpr
        refine ⟨fun entry member => ?_, ih later⟩
        rcases mem_of_mem_set member with same | old
        · rw [same]
          exact order.total apart (eq_false_of_ne_true behind)
        · exact first entry old

/-- A value that is set counts in place of the one before. -/
theorem Ordered.total_set (key : α) (value : Option β → β) (weight : β → Nat) :
    total ((OrderedMap.set before key value entries).map fun entry => weight entry.2) +
        ((find? key entries).map weight).getD 0 =
      total (entries.map fun entry => weight entry.2) + weight (value (find? key entries)) := by
  induction entries with
  | nil => simp [OrderedMap.set, total]
  | cons own rest ih =>
    obtain ⟨first, later⟩ := List.pairwise_cons.mp ordered
    have others := ih later
    rw [OrderedMap.set, find?_cons]
    split
    · simp only [List.map_cons, total_cons, Option.map_some, Option.getD_some]
      omega
    · split
      · rename_i less
        have absent : find? key rest = none :=
          find?_of_before order fun entry member => order.trans less (first entry member)
        simp only [absent, List.map_cons, total_cons, Option.map_none, Option.getD_none]
        omega
      · simp only [List.map_cons, total_cons]
        omega

end

/-- A key behind all others is entered at the end. -/
theorem set_of_behind (order : IsOrder before) {key : α}
    (behind : ∀ entry ∈ entries, before entry.1 key = true) (value : Option β → β) :
    set before key value entries = entries ++ [(key, value none)] := by
  induction entries with
  | nil => rfl
  | cons own rest ih =>
    obtain ⟨first, later⟩ := List.forall_mem_cons.mp behind
    have not_before : ¬ before key own.1 = true := fun less =>
      order.ne (order.trans first less) rfl
    rw [set, if_neg (order.ne first).symm, if_neg not_before, ih later, List.cons_append]

/-- Entries that are in order already are entered as they are. -/
theorem foldl_set (order : IsOrder before) {first later : List (α × β)}
    (ordered : Ordered before (first ++ later)) :
    later.foldl (fun entries entry => set before entry.1 (fun _ => entry.2) entries) first =
      first ++ later := by
  induction later generalizing first with
  | nil => exact (List.append_nil first).symm
  | cons entry later ih =>
    have behind : ∀ other ∈ first, before other.1 entry.1 = true := fun other member =>
      (List.pairwise_append.mp ordered).2.2 other member entry List.mem_cons_self
    rw [List.append_cons] at ordered
    rw [List.foldl_cons, set_of_behind order behind, ih ordered, ← List.append_cons]

end KeyholeMarkup.OrderedMap

import KeyholeMarkup.Proofs.OrderedMap
import KeyholeMarkup.Proofs.Xml.Elements
import KeyholeMarkup.Xml.Count
import Mathlib.Data.List.Induction

/-! Counts of elements against the elements of the tree. Both levels of the counts are maps in the order
of their keys, and every element that opens adds one to the number of its name. -/
namespace KeyholeMarkup.Xml
open OrderedMap

theorem isOrder_uriBefore : IsOrder uriBefore where
  irrefl uri := by
    cases uri with
    | none => rfl
    | some uri => exact isOrder_textBefore.irrefl uri
  trans {first second third} left right := by
    cases second with
    | none => cases first <;> cases left
    | some uri =>
      cases third with
      | none => cases right
      | some uri' =>
        cases first with
        | none => rfl
        | some uri'' => exact isOrder_textBefore.trans left right
  total {first second} apart behind := by
    cases first with
    | none =>
      cases second with
      | none => exact absurd rfl apart
      | some uri => cases behind
    | some uri =>
      cases second with
      | none => rfl
      | some uri' => exact isOrder_textBefore.total (fun same => apart (congrArg some same)) behind

namespace ElementCounts

/-- The number that is recorded for a name. -/
def number? (counts : ElementCounts) (name : Name) : Option Nat :=
  (find? name.uri counts).bind (find? name.localName)

/-- All names with their numbers. -/
def entries (counts : ElementCounts) : List (Name × Nat) :=
  counts.flatMap fun (uri, names) => names.map fun (localName, number) => (⟨uri, localName⟩, number)

/-- The counts of some elements: a name is recorded exactly if there are elements of it, with their
number, it is recorded once, and no namespace is without names. -/
structure Exact (counts : ElementCounts) (elements : List Element) : Prop where
  number?_eq_some_iff : ∀ name number, counts.number? name = some number ↔
    0 < number ∧ elements.countP (·.name == name) = number
  mem_entries_iff : ∀ name number, (name, number) ∈ counts.entries ↔
    counts.number? name = some number
  uris : (counts.map (·.1)).Nodup
  names : ∀ block ∈ counts, block.2 ≠ [] ∧ (block.2.map (·.1)).Nodup
  total : total (counts.entries.map (·.2)) = elements.length

structure Sorted (counts : ElementCounts) : Prop where
  uris : Ordered uriBefore counts
  names : ∀ block ∈ counts, block.2 ≠ [] ∧ Ordered textBefore block.2

theorem total_entries (counts : ElementCounts) : total (counts.entries.map (·.2)) =
    total (counts.map fun block => total (block.2.map fun entry => entry.2)) := by
  induction counts with
  | nil => rfl
  | cons block rest ih =>
    have whole : entries (block :: rest) =
      (block.2.map fun entry => (⟨block.1, entry.1⟩, entry.2)) ++ entries rest := rfl
    rw [whole, List.map_append, total_append, ih, List.map_map, List.map_cons, total_cons]
    rfl

theorem NameCounts.add_ne_nil (localName : String) (counts : NameCounts) :
    counts.add localName ≠ [] := by
  intro empty
  have found := congrArg List.length empty
  cases counts with
  | nil => cases found
  | cons entry rest =>
    rw [NameCounts.add, OrderedMap.set] at found
    split at found
    · cases found
    · split at found <;> cases found

section
variable {counts : ElementCounts} (sorted : counts.Sorted)
include sorted

theorem Sorted.ordered_names (uri : Option String) :
    Ordered textBefore ((find? uri counts).getD []) := by
  cases found : find? uri counts with
  | none => exact List.Pairwise.nil
  | some names =>
    have member := (sorted.uris.mem_iff isOrder_uriBefore).mpr found
    exact (sorted.names _ member).2

theorem Sorted.add (name : Name) : (counts.add name).Sorted := by
  have ordered := sorted.uris.set isOrder_uriBefore name.uri
    fun names => NameCounts.add name.localName (names.getD [])
  refine ⟨ordered, ?_⟩
  rintro ⟨uri, names⟩ member
  have found := (ordered.mem_iff isOrder_uriBefore).mp member
  rw [sorted.uris.find?_set isOrder_uriBefore] at found
  split at found
  · cases found
    exact ⟨NameCounts.add_ne_nil _ _, (sorted.ordered_names name.uri).set isOrder_textBefore _ _⟩
  · exact sorted.names _ ((sorted.uris.mem_iff isOrder_uriBefore).mpr found)

theorem Sorted.number?_add (name other : Name) : (counts.add name).number? other =
    if other = name then some ((counts.number? name).getD 0 + 1) else counts.number? other := by
  have found := sorted.uris.find?_set isOrder_uriBefore name.uri other.uri
    fun names => NameCounts.add name.localName (names.getD [])
  have inner := (sorted.ordered_names name.uri).find?_set isOrder_textBefore name.localName
    other.localName fun count => count.getD 0 + 1
  -- What is recorded for a namespace is found in its names, which are none if there is no entry.
  have recorded (localName : String) : find? localName ((find? name.uri counts).getD []) =
      (find? name.uri counts).bind (find? localName) := by
    cases find? name.uri counts <;> rfl
  rw [number?, ElementCounts.add, found, number?]
  obtain ⟨uri, localName⟩ := name
  obtain ⟨uri', localName'⟩ := other
  by_cases same : uri' = uri
  · subst same
    rw [if_pos rfl, Option.bind_some, NameCounts.add, inner, recorded, recorded]
    by_cases alike : localName' = localName
    · subst alike
      rw [if_pos rfl, if_pos rfl]
    · rw [if_neg alike, if_neg (by simpa using alike)]
      rfl
  · rw [if_neg same, if_neg (by simp [same])]
    rfl

theorem Sorted.total_add (name : Name) :
    total ((counts.add name).entries.map (·.2)) = total (counts.entries.map (·.2)) + 1 := by
  have outer := sorted.uris.total_set isOrder_uriBefore name.uri
    (fun names => NameCounts.add name.localName (names.getD [])) fun names => total (names.map (·.2))
  have inner := (sorted.ordered_names name.uri).total_set isOrder_textBefore name.localName
    (fun count => count.getD 0 + 1) fun count => count
  have recorded : ((find? name.uri counts).map fun names => total (names.map (·.2))).getD 0 =
      total (((find? name.uri counts).getD []).map (·.2)) := by
    cases find? name.uri counts <;> rfl
  rw [recorded] at outer
  rw [Option.map_id'] at inner
  rw [total_entries, total_entries, ElementCounts.add]
  simp only [NameCounts.add] at outer ⊢
  omega

theorem Sorted.mem_entries_iff (name : Name) (number : Nat) :
    (name, number) ∈ counts.entries ↔ counts.number? name = some number := by
  have listed : (name, number) ∈ counts.entries ↔
      ∃ names, (name.uri, names) ∈ counts ∧ (name.localName, number) ∈ names := by
    simp only [entries, List.mem_flatMap, List.mem_map, Prod.mk.injEq]
    constructor
    · rintro ⟨⟨uri, names⟩, block, ⟨localName, recorded⟩, entry, rfl, rfl⟩
      exact ⟨names, block, entry⟩
    · rintro ⟨names, block, entry⟩
      exact ⟨(name.uri, names), block, (name.localName, number), entry, rfl, rfl⟩
  rw [listed, number?, Option.bind_eq_some_iff]
  apply exists_congr
  intro names
  rw [sorted.uris.mem_iff isOrder_uriBefore, and_congr_right_iff]
  intro found
  have ordered := sorted.ordered_names name.uri
  rw [found] at ordered
  exact ordered.mem_iff isOrder_textBefore

end

/-- The counts of some elements, one after the other. -/
def ofElements (elements : List Element) : ElementCounts :=
  elements.foldl (fun counts element => counts.add element.name) []

theorem ofElements_concat (elements : List Element) (last : Element) :
    ofElements (elements ++ [last]) = (ofElements elements).add last.name := by
  rw [ofElements, List.foldl_append]
  rfl

variable (elements : List Element)

theorem sorted_ofElements : (ofElements elements).Sorted := by
  induction elements using List.reverseRecOn with
  | nil => exact ⟨.nil, by rintro _ ⟨⟩⟩
  | append_singleton elements last ih =>
    rw [ofElements_concat]
    exact ih.add last.name

theorem number?_ofElements (name : Name) : (ofElements elements).number? name =
    if elements.countP (·.name == name) = 0 then none
    else some (elements.countP (·.name == name)) := by
  induction elements using List.reverseRecOn with
  | nil => rfl
  | append_singleton elements last ih =>
    rw [ofElements_concat, (sorted_ofElements elements).number?_add, List.countP_append]
    by_cases same : name = last.name
    · rw [if_pos same, ← same, ih]
      have one : [last].countP (·.name == name) = 1 := by simp [same]
      rw [one, if_neg (Nat.succ_ne_zero _)]
      split
      · rename_i none
        rw [none]
        rfl
      · rfl
    · have no : [last].countP (·.name == name) = 0 := by simp [Ne.symm same]
      rw [if_neg same, ih, no, Nat.add_zero]

theorem total_ofElements : total ((ofElements elements).entries.map (·.2)) = elements.length := by
  induction elements using List.reverseRecOn with
  | nil => rfl
  | append_singleton elements last ih =>
    rw [ofElements_concat, (sorted_ofElements elements).total_add, ih, List.length_append]
    rfl

theorem exact_ofElements : (ofElements elements).Exact elements := by
  have sorted := sorted_ofElements elements
  refine ⟨fun name number => ?_, sorted.mem_entries_iff, sorted.uris.nodup isOrder_uriBefore,
    fun block member => ?_, total_ofElements elements⟩
  · rw [number?_ofElements]
    split
    · rename_i none
      rw [none]
      constructor
      · rintro ⟨⟩
      · rintro ⟨positive, rfl⟩
        exact absurd positive (Nat.lt_irrefl 0)
    · rename_i some
      rw [Option.some.injEq]
      constructor
      · rintro rfl
        exact ⟨Nat.pos_of_ne_zero some, rfl⟩
      · exact And.right
  · obtain ⟨nonempty, ordered⟩ := sorted.names block member
    exact ⟨nonempty, ordered.nodup isOrder_textBefore⟩

end ElementCounts

theorem Document.counts_eq (document : Document) :
    document.counts = .ofElements document.root.allElements := by
  rw [counts, ElementCounts.ofElements, ← document.filterMap_events, List.foldl_filterMap]
  congr 1
  funext counts event
  cases event <;> rfl

end KeyholeMarkup.Xml

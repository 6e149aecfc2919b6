import KeyholeMarkup.Proofs.Schema.Visits
import Std.Data.String.ToNat

/-! Paths of elements. The path of a child is that of its parent with one step more, so paths differ if
the steps to the children of each element do. Children are numbered by their qualified names and
written by their local ones, so the steps differ unless a local name stands for two names. -/
namespace KeyholeMarkup.Schema
open KeyholeMarkup.Source KeyholeMarkup.Xml

/-- The steps to the children of an element, in order. -/
def childSteps (element : Element) : List String :=
  let names := element.content.elements.map (·.name)
  stepsFrom (tally names) [] names

/-- The elements in a content with their paths, if those of its own elements are given. -/
def addressed : List String → Content → List (String × Element)
  | paths, .comment _ rest => addressed paths rest
  | path :: paths, .element tag inner rest =>
    (path, ⟨tag, inner⟩) ::
      (addressed (childPaths path (inner.elements.map (·.name))) inner ++ addressed paths rest)
  | [], .element .. | _, .empty => []

/-- All elements of a document with their paths, in document order. -/
def addressedIn (document : Document) : List (String × Element) :=
  addressed ["/" ++ document.root.name.localName]
    (.element document.root.tag document.root.content .empty)

/-- What an issue says about its place is true of the element: it has no place, or it is at the
element, or at a child that the element must not have. -/
def Issue.Concerns (issue : Issue) (element : Element) : Prop :=
  issue.location = none ∨ issue.location = element.tag.span ∨
    issue.violation.ofChild = true ∧
      ∃ child ∈ element.content.elements, issue.location = child.tag.span

theorem length_childSteps (element : Element) :
    (childSteps element).length = element.content.elements.length := by
  rw [childSteps, length_stepsFrom, List.length_map]

/-- A text ends where a character stands that is not in it, so it can be told from what follows. -/
theorem eq_of_separated (separator : Char) {first second rest rest' : List Char}
    (plain : separator ∉ first) (plain' : separator ∉ second)
    (ends : ∀ next ∈ rest.head?, next = separator) (ends' : ∀ next ∈ rest'.head?, next = separator)
    (same : first ++ rest = second ++ rest') : first = second ∧ rest = rest' := by
  have cut {text rest : List Char} (plain : separator ∉ text)
      (ends : ∀ next ∈ rest.head?, next = separator) :
      (text ++ rest).takeWhile (· ≠ separator) = text := by
    have apart : ∀ c ∈ text, decide (c ≠ separator) = true := by
      intro c member
      exact decide_eq_true fun equal => plain (equal ▸ member)
    rw [List.takeWhile_append_of_pos apart]
    cases rest with
    | nil => simp
    | cons next rest => simp [ends next rfl]
  have head : first = second := by
    rw [← cut plain ends, same, cut plain' ends']
  exact ⟨head, List.append_cancel_left (head ▸ same)⟩

section Numbers

/-- Names with how many of their kind there are up to them, behind some names that come before. -/
def numbered (before : List Name) : List Name → List (Name × Nat)
  | [] => []
  | name :: names => (name, before.count name + 1) :: numbered (before ++ [name]) names

/-- A name as a step, numbered if there are several of it. -/
def stepOf (names : List Name) (entry : Name × Nat) : String :=
  if 1 < names.count entry.1 then entry.1.localName ++ "[" ++ toString entry.2 ++ "]"
  else entry.1.localName

theorem find?_foldl_count (names : List Name) (counts : Table Nat) (name : Name) :
    ((names.foldl (fun counts name => counts.insert name ((counts.find? name).getD 0 + 1))
      counts).find? name).getD 0 = (counts.find? name).getD 0 + names.count name := by
  induction names generalizing counts with
  | nil => simp
  | cons first names ih =>
    rw [List.foldl_cons, ih, List.count_cons]
    by_cases same : first = name
    · subst same
      rw [Table.find?_insert_self, Option.getD_some, beq_self_eq_true, if_pos rfl]
      omega
    · rw [Table.find?_insert_of_ne _ _ (Ne.symm same), beq_eq_false_iff_ne.mpr same]
      simp

theorem find?_tally (names : List Name) (name : Name) :
    ((tally names).find? name).getD 0 = names.count name := by
  rw [tally, find?_foldl_count, Table.find?_nil, Option.getD_none, Nat.zero_add]

theorem stepsFrom_eq (all before names : List Name) (seen : Table Nat)
    (counted : ∀ name, (seen.find? name).getD 0 = before.count name) :
    stepsFrom (tally all) seen names = (numbered before names).map (stepOf all) := by
  -- the table has counted the names in front, so a name gets the next number of its own
  induction names generalizing before seen with
  | nil => rfl
  | cons name names ih =>
    have further : ∀ other, ((seen.insert name ((seen.find? name).getD 0 + 1)).find? other).getD 0 =
        (before ++ [name]).count other := by
      intro other
      rw [List.count_append, List.count_singleton]
      by_cases same : name = other
      · subst same
        rw [Table.find?_insert_self, Option.getD_some, counted, beq_self_eq_true, if_pos rfl]
      · rw [Table.find?_insert_of_ne _ _ (Ne.symm same), counted, beq_eq_false_iff_ne.mpr same]
        rfl
    rw [stepsFrom, numbered, List.map_cons, ih _ _ further, stepOf, find?_tally, counted]

theorem childSteps_eq (element : Element) :
    childSteps element = (numbered [] (element.content.elements.map (·.name))).map
      (stepOf (element.content.elements.map (·.name))) :=
  stepsFrom_eq _ [] _ [] fun name => by simp

variable {before names : List Name} {entry : Name × Nat}

theorem of_mem_numbered (member : entry ∈ numbered before names) :
    entry.1 ∈ names ∧ before.count entry.1 < entry.2 ∧
      entry.2 ≤ before.count entry.1 + names.count entry.1 := by
  induction names generalizing before with
  | nil => cases member
  | cons name names ih =>
    rcases List.mem_cons.mp member with rfl | later
    · refine ⟨List.mem_cons_self, Nat.lt_succ_self _, ?_⟩
      dsimp only
      rw [List.count_cons_self]
      omega
    · obtain ⟨inside, above, below⟩ := ih later
      rw [List.count_append, List.count_singleton] at above below
      refine ⟨List.mem_cons_of_mem _ inside, by omega, ?_⟩
      rw [List.count_cons]
      omega

theorem nodup_numbered (before names : List Name) : (numbered before names).Nodup := by
  induction names generalizing before with
  | nil => exact .nil
  | cons name names ih =>
    refine List.nodup_cons.mpr ⟨fun later => ?_, ih _⟩
    have above := (of_mem_numbered later).2.1
    rw [List.count_append, List.count_singleton_self] at above
    exact Nat.lt_irrefl _ above

/-- Every name comes for the first time somewhere. -/
theorem first_mem_numbered {name : Name} (member : name ∈ names) :
    (name, before.count name + 1) ∈ numbered before names := by
  induction names generalizing before with
  | nil => cases member
  | cons first names ih =>
    by_cases same : first = name
    · subst same
      exact List.mem_cons_self
    · have inside : name ∈ names := by
        rcases List.mem_cons.mp member with rfl | inside
        · exact absurd rfl same
        · exact inside
      have later := @ih (before ++ [first]) inside
      rw [List.count_append, List.count_singleton, beq_eq_false_iff_ne.mpr same] at later
      exact List.mem_cons_of_mem _ later

/-- A number in brackets can be told from the name in front of it. -/
theorem stepOf_eq_iff {all : List Name} {first second : Name × Nat}
    (plain : '[' ∉ first.1.localName.toList) (plain' : '[' ∉ second.1.localName.toList) :
    stepOf all first = stepOf all second ↔ first.1.localName = second.1.localName ∧
      (1 < all.count first.1 ↔ 1 < all.count second.1) ∧
      (1 < all.count first.1 → first.2 = second.2) := by
  have numberless {name : String} {number : Nat} (plain : '[' ∉ name.toList) (other : String) :
      other ++ "[" ++ toString number ++ "]" ≠ name := by
    rintro rfl
    simp at plain
  unfold stepOf
  by_cases several : 1 < all.count first.1 <;> by_cases several' : 1 < all.count second.1
  · rw [if_pos several, if_pos several']
    simp only [several, several', true_and, forall_const]
    constructor
    · intro same
      have characters := congrArg String.toList same
      simp only [String.toList_append, List.append_assoc] at characters
      obtain ⟨name, rest⟩ := eq_of_separated _ plain plain' (by simp) (by simp) characters
      have digits : (toString first.2).toList = (toString second.2).toList := by simpa using rest
      exact ⟨String.toList_inj.mp name, Nat.repr_injective (String.toList_inj.mp digits)⟩
    · rintro ⟨name, number⟩
      rw [name, number]
  · rw [if_pos several, if_neg several']
    simp only [several, several', iff_false, not_true, false_and, and_false]
    exact numberless plain' _
  · rw [if_neg several, if_pos several']
    simp only [several, several', iff_true, false_and, and_false, iff_false]
    exact (numberless plain _).symm
  · rw [if_neg several, if_neg several']
    simp only [several, several', false_implies, and_true]

/-- The steps to some children differ exactly if no two names with one local part are both repeated
or both alone. -/
theorem nodup_steps_iff (plain : ∀ name ∈ names, '[' ∉ name.localName.toList) :
    ((numbered [] names).map (stepOf names)).Nodup ↔
      ∀ first ∈ names, ∀ second ∈ names, first.localName = second.localName →
        (1 < names.count first ↔ 1 < names.count second) → first = second := by
  constructor
  · intro distinct first member second member' sameLocal alike
    have same := List.inj_on_of_nodup_map distinct (first_mem_numbered member)
      (first_mem_numbered member')
    refine congrArg Prod.fst (same ((stepOf_eq_iff ?_ ?_).mpr ⟨sameLocal, alike, fun _ => rfl⟩))
    · exact plain first member
    · exact plain second member'
  · intro apart
    refine List.Nodup.map_on ?_ (nodup_numbered [] names)
    rintro ⟨first, number⟩ member ⟨second, number'⟩ member' same
    obtain ⟨inside, above, below⟩ := of_mem_numbered member
    obtain ⟨inside', above', below'⟩ := of_mem_numbered member'
    obtain ⟨sameLocal, alike, numbers⟩ :=
      (stepOf_eq_iff (plain first inside) (plain second inside')).mp same
    obtain rfl : first = second := apart first inside second inside' sameLocal alike
    simp only [List.count_nil] at above below above' below'
    obtain rfl : number = number' := by
      by_cases several : 1 < names.count first
      · exact numbers several
      · omega
    rfl

theorem slash_notMem_stepOf {all : List Name} {entry : Name × Nat}
    (plain : '/' ∉ entry.1.localName.toList) : '/' ∉ (stepOf all entry).toList := by
  have digits : '/' ∉ Nat.toDigits 10 entry.2 := by
    intro member
    have isDigit := Nat.isDigit_of_mem_toDigits (by decide) (by decide) member
    exact absurd isDigit (by decide)
  unfold stepOf
  split
  · simpa using ⟨plain, digits⟩
  · exact plain

theorem slash_notMem_childSteps {element : Element}
    (plain : ∀ child ∈ element.content.elements, '/' ∉ child.name.localName.toList) :
    ∀ step ∈ childSteps element, '/' ∉ step.toList := by
  intro step member
  rw [childSteps_eq] at member
  obtain ⟨entry, inside, rfl⟩ := List.mem_map.mp member
  obtain ⟨child, held, same⟩ := List.mem_map.mp (of_mem_numbered inside).1
  exact slash_notMem_stepOf (same ▸ plain child held)

end Numbers

theorem tag_mem_tags {content : Content} {child : Element} (member : child ∈ content.elements) :
    child.tag ∈ content.tags := by
  induction content with
  | empty => simp [Content.elements] at member
  | comment _ rest ih => exact ih member
  | element tag inner rest _ ihRest =>
    rcases List.mem_cons.mp member with rfl | later
    · exact List.mem_cons_self
    · exact List.mem_cons_of_mem _ (List.mem_append_right _ (ihRest later))

section Paths

/-- A path that another one begins with, step by step. -/
def LeadsTo (path other : String) : Prop :=
  ∃ rest, other.toList = path.toList ++ rest ∧ ∀ next ∈ rest.head?, next = '/'

theorem LeadsTo.refl (path : String) : LeadsTo path path := ⟨[], by simp, by simp⟩

theorem LeadsTo.trans {first second third : String} (leads : LeadsTo first second)
    (leads' : LeadsTo second third) : LeadsTo first third := by
  obtain ⟨rest, same, ends⟩ := leads
  obtain ⟨rest', same', ends'⟩ := leads'
  refine ⟨rest ++ rest', by rw [same', same, List.append_assoc], ?_⟩
  cases rest with
  | nil => exact ends'
  | cons next rest => exact ends

theorem LeadsTo.step (path step : String) : LeadsTo path (path ++ "/" ++ step) :=
  ⟨'/' :: step.toList, by simp, by simp⟩

/-- No path leads back to an earlier one. -/
theorem LeadsTo.ne {path step other : String} (leads : LeadsTo (path ++ "/" ++ step) other) :
    other ≠ path := by
  rintro rfl
  obtain ⟨rest, same, -⟩ := leads
  have longer := congrArg List.length same
  simp at longer

/-- Of the steps from an element only one leads to a path. -/
theorem LeadsTo.step_eq {path step step' other : String} (plain : '/' ∉ step.toList)
    (plain' : '/' ∉ step'.toList) (leads : LeadsTo (path ++ "/" ++ step) other)
    (leads' : LeadsTo (path ++ "/" ++ step') other) : step = step' := by
  obtain ⟨rest, same, ends⟩ := leads
  obtain ⟨rest', same', ends'⟩ := leads'
  rw [same] at same'
  simp only [String.toList_append, List.append_assoc, List.append_cancel_left_eq] at same'
  exact String.toList_inj.mp (eq_of_separated _ plain plain' ends ends' same').1

variable {paths : List String} {content : Content} {entry : String × Element}

/-- Every element is below one that has been given a path. -/
theorem leadsTo_of_mem_addressed (member : entry ∈ addressed paths content) :
    ∃ path ∈ paths, LeadsTo path entry.1 := by
  induction content generalizing paths with
  | empty => simp [addressed] at member
  | comment _ rest ih => exact ih member
  | element tag inner rest ihInner ihRest =>
    cases paths with
    | nil => simp [addressed] at member
    | cons path paths =>
      rcases List.mem_cons.mp member with rfl | member
      · exact ⟨path, List.mem_cons_self, .refl path⟩
      rcases List.mem_append.mp member with inside | later
      · obtain ⟨childPath, given, leads⟩ := ihInner inside
        obtain ⟨step, -, rfl⟩ := List.mem_map.mp given
        exact ⟨path, List.mem_cons_self, (LeadsTo.step path step).trans leads⟩
      · obtain ⟨path', given, leads⟩ := ihRest later
        exact ⟨path', List.mem_cons_of_mem _ given, leads⟩

/-- The elements of a content have the paths that are given for them. -/
theorem mem_addressed_of_mem_zip {child : Element} {path : String}
    (member : (child, path) ∈ content.elements.zip paths) :
    (path, child) ∈ addressed paths content := by
  induction content generalizing paths with
  | empty => simp [Content.elements] at member
  | comment _ rest ih => exact ih member
  | element tag inner rest _ ihRest =>
    cases paths with
    | nil => simp at member
    | cons first paths =>
      rw [Content.elements, List.zip_cons_cons] at member
      rcases List.mem_cons.mp member with same | later
      · cases same
        exact List.mem_cons_self
      · exact List.mem_cons_of_mem _ (List.mem_append_right _ (ihRest later))

/-- The children of an element with a path have paths too. -/
theorem mem_addressed_child {child : Element × String} (member : entry ∈ addressed paths content)
    (held : child ∈ entry.2.content.elements.zip
      (childPaths entry.1 (entry.2.content.elements.map (·.name)))) :
    (child.2, child.1) ∈ addressed paths content := by
  induction content generalizing paths with
  | empty => simp [addressed] at member
  | comment _ rest ih => exact ih member
  | element tag inner rest ihInner ihRest =>
    cases paths with
    | nil => simp [addressed] at member
    | cons path paths =>
      rcases List.mem_cons.mp member with rfl | member
      · exact List.mem_cons_of_mem _ (List.mem_append_left _ (mem_addressed_of_mem_zip held))
      rcases List.mem_append.mp member with inside | later
      · exact List.mem_cons_of_mem _ (List.mem_append_left _ (ihInner inside))
      · exact List.mem_cons_of_mem _ (List.mem_append_right _ (ihRest later))

theorem exists_addressed_child {child : Element} (member : entry ∈ addressed paths content)
    (held : child ∈ entry.2.content.elements) : ∃ path, (path, child) ∈ addressed paths content := by
  have enough : entry.2.content.elements.length ≤
      (childPaths entry.1 (entry.2.content.elements.map (·.name))).length := by
    rw [length_childPaths, List.length_map]
  rw [← List.map_fst_zip enough] at held
  obtain ⟨⟨child, path⟩, inside, rfl⟩ := List.mem_map.mp held
  exact ⟨path, mem_addressed_child member inside⟩

theorem map_tag_addressed (enough : content.elements.length ≤ paths.length) :
    (addressed paths content).map (·.2.tag) = content.tags := by
  induction content generalizing paths with
  | empty => simp [addressed, Content.tags]
  | comment _ rest ih => exact ih enough
  | element tag inner rest ihInner ihRest =>
    cases paths with
    | nil => simp [Content.elements] at enough
    | cons path paths =>
      have inside := @ihInner (childPaths path (inner.elements.map (·.name)))
        (by rw [length_childPaths, List.length_map])
      have later := @ihRest paths (Nat.le_of_succ_le_succ enough)
      rw [addressed, List.map_cons, List.map_append, inside, later]
      rfl

theorem mem_map_addressed {path : String} (given : path ∈ paths)
    (enough : paths.length ≤ content.elements.length) :
    path ∈ (addressed paths content).map (·.1) := by
  rw [← List.map_snd_zip enough] at given
  obtain ⟨⟨child, path⟩, held, rfl⟩ := List.mem_map.mp given
  exact List.mem_map.mpr ⟨_, mem_addressed_of_mem_zip held, rfl⟩

variable {parent step : String} {steps : List String}

/-- What is below an element has another path, to which that of the element leads. -/
theorem leadsTo_of_mem_inside
    (member : entry ∈ addressed (steps.map fun step => parent ++ "/" ++ step) content) :
    LeadsTo parent entry.1 ∧ entry.1 ≠ parent := by
  obtain ⟨path, given, leads⟩ := leadsTo_of_mem_addressed member
  obtain ⟨step, -, rfl⟩ := List.mem_map.mp given
  exact ⟨(LeadsTo.step parent step).trans leads, leads.ne⟩

/-- A step to none of some elements leads to nothing in them either. -/
theorem not_leadsTo_of_notMem (parent : String) (content : Content) (plain : '/' ∉ step.toList)
    (plainSteps : ∀ step ∈ steps, '/' ∉ step.toList) (other : step ∉ steps) :
    ∀ path ∈ (addressed (steps.map fun step => parent ++ "/" ++ step) content).map (·.1),
      ¬ LeadsTo (parent ++ "/" ++ step) path := by
  intro path member leads
  obtain ⟨entry, held, rfl⟩ := List.mem_map.mp member
  obtain ⟨path, given, leads'⟩ := leadsTo_of_mem_addressed held
  obtain ⟨step', inside, rfl⟩ := List.mem_map.mp given
  exact other (leads.step_eq plain (plainSteps step' inside) leads' ▸ inside)

/-- The paths in a content differ exactly if those of its own elements do and so do the steps to the
children of each element. -/
theorem nodup_addressed_iff (parent : String) (steps : List String)
    (plain : ∀ step ∈ steps, '/' ∉ step.toList) (enough : content.elements.length = steps.length)
    (plainNames : ∀ tag ∈ content.tags, '/' ∉ tag.name.localName.toList) :
    ((addressed (steps.map fun step => parent ++ "/" ++ step) content).map (·.1)).Nodup ↔
      steps.Nodup ∧ ∀ entry ∈ addressed (steps.map fun step => parent ++ "/" ++ step) content,
        (childSteps entry.2).Nodup := by
  induction content generalizing parent steps with
  | empty =>
    obtain rfl : steps = [] := List.eq_nil_of_length_eq_zero enough.symm
    simp [addressed]
  | comment _ rest ih => exact ih _ _ plain enough plainNames
  | element tag inner rest ihInner ihRest =>
    cases steps with
    | nil => simp [Content.elements] at enough
    | cons step steps =>
      let element : Element := ⟨tag, inner⟩
      have unfolded : addressed ((step :: steps).map fun step => parent ++ "/" ++ step)
          (.element tag inner rest) = (parent ++ "/" ++ step, element) ::
            (addressed ((childSteps element).map fun inside => parent ++ "/" ++ step ++ "/" ++ inside)
              inner ++ addressed (steps.map fun step => parent ++ "/" ++ step) rest) := rfl
      obtain ⟨plainStep, plainSteps⟩ := List.forall_mem_cons.mp plain
      obtain ⟨-, plainInner, plainRest⟩ :
          '/' ∉ tag.name.localName.toList ∧
            (∀ tag ∈ inner.tags, '/' ∉ tag.name.localName.toList) ∧
            ∀ tag ∈ rest.tags, '/' ∉ tag.name.localName.toList := by
        simpa only [Content.tags, List.cons_append, List.forall_mem_cons, List.forall_mem_append]
          using plainNames
      have within := ihInner (parent ++ "/" ++ step) (childSteps element)
        (slash_notMem_childSteps fun child held => plainInner _ (tag_mem_tags held))
        (length_childSteps element).symm plainInner
      have after := ihRest parent steps plainSteps (Nat.succ.inj enough) plainRest
      rw [unfolded, List.map_cons, List.map_append, List.nodup_cons, List.nodup_append, within, after,
        List.nodup_cons, List.forall_mem_cons, List.forall_mem_append]
      constructor
      · rintro ⟨apart, ⟨ownSteps, inside⟩, ⟨others, later⟩, -⟩
        refine ⟨⟨fun again => apart (List.mem_append_right _ ?_), others⟩, ownSteps, inside, later⟩
        refine mem_map_addressed (List.mem_map.mpr ⟨step, again, rfl⟩) ?_
        rw [List.length_map]
        exact (Nat.succ.inj enough).ge
      · rintro ⟨⟨alone, others⟩, ownSteps, inside, later⟩
        -- all that is below this element is behind its step, and nothing in its siblings is
        have elsewhere := not_leadsTo_of_notMem parent rest plainStep plainSteps alone
        refine ⟨fun again => ?_, ⟨ownSteps, inside⟩, ⟨others, later⟩, fun path member path' member' => ?_⟩
        · rcases List.mem_append.mp again with again | again
          · obtain ⟨entry, held, same⟩ := List.mem_map.mp again
            exact (leadsTo_of_mem_inside held).2 same
          · exact elsewhere _ again (.refl _)
        · obtain ⟨entry, held, rfl⟩ := List.mem_map.mp member
          rintro rfl
          exact elsewhere _ member' (leadsTo_of_mem_inside held).1

end Paths

section Issues
variable {components : Components}

theorem map_snd_zip_isPrefix {α β : Type} (first : List α) (second : List β) :
    (first.zip second).map (·.2) <+: second := by
  induction first generalizing second with
  | nil => exact List.nil_prefix
  | cons _ first ih =>
    cases second with
    | nil => exact List.nil_prefix
    | cons entry second => exact List.cons_prefix_cons.mpr ⟨rfl, ih second⟩

/-- Elements are visited under their paths. -/
theorem mem_addressed_of_mem_visits {targets : List (Target × String)} {paths : List String}
    {content : Content} {visit : Visit} (given : targets.map (·.2) <+: paths)
    (visited : visit ∈ components.visits targets content) :
    (visit.path, visit.element) ∈ addressed paths content := by
  induction content generalizing targets paths with
  | empty => simp [Components.visits] at visited
  | comment _ rest ih => exact ih given visited
  | element tag inner rest ihInner ihRest =>
    cases targets with
    | nil => simp [Components.visits] at visited
    | cons target targets =>
      cases paths with
      | nil => simp at given
      | cons path paths =>
        obtain ⟨rfl, others⟩ := List.cons_prefix_cons.mp given
        rcases List.mem_cons.mp visited with rfl | visited
        · exact List.mem_cons_self
        rcases List.mem_append.mp visited with inside | later
        · exact List.mem_cons_of_mem _ (List.mem_append_left _ (ihInner (map_snd_zip_isPrefix _ _) inside))
        · exact List.mem_cons_of_mem _ (List.mem_append_right _ (ihRest others later))

/-- An issue has the path of the element that it concerns. -/
theorem exists_concerned {document : Document} {issue : Issue}
    (member : issue ∈ components.issues document) :
    ∃ element, (issue.path, element) ∈ addressedIn document ∧ issue.Concerns element := by
  cases found : components.elements.find? document.root.name with
  | none =>
    simp only [Components.issues, found, List.mem_singleton] at member
    subst member
    exact ⟨document.root, List.mem_cons_self, .inr (.inl rfl)⟩
  | some declaration =>
    rw [issues_eq document found] at member
    obtain ⟨visit, visited, raised⟩ := List.mem_flatMap.mp (firstReports_subset _ member)
    simp only [Components.visitsOf, found] at visited
    have addressed : (visit.path, visit.element) ∈ addressedIn document :=
      mem_addressed_of_mem_visits (List.prefix_refl _) visited
    cases Visit.raises_of_mem raised with
    | missing missing => exact ⟨visit.element, addressed, .inl rfl⟩
    | own _ _ => exact ⟨visit.element, addressed, .inr (.inl rfl)⟩
    | inTextOnly held => exact ⟨visit.element, addressed, .inr (.inr ⟨rfl, _, held, rfl⟩)⟩
    | refused held => exact ⟨_, mem_addressed_child addressed held, .inr (.inl rfl)⟩

/-- Of the names of the children no two have one local part and are both repeated or both alone. -/
def NamesToldApart (element : Element) : Prop :=
  let names := element.content.elements.map (·.name)
  ∀ first ∈ names, ∀ second ∈ names, first.localName = second.localName →
    (1 < names.count first ↔ 1 < names.count second) → first = second

/-- Every element of a document has a path, which the issues that concern it have. Two elements may
share one: if no local name holds a slash or a bracket, the paths differ exactly if no element has
children whose names have one local part and are both repeated or both alone. -/
theorem nodup_paths_iff_namesToldApart {document : Document}
    (plain : ∀ tag ∈ document.root.tags,
      '/' ∉ tag.name.localName.toList ∧ '[' ∉ tag.name.localName.toList) :
    (addressedIn document).map (·.2.tag) = document.root.tags ∧
    (∀ components : Components, ∀ issue ∈ components.issues document,
      ∃ element, (issue.path, element) ∈ addressedIn document ∧ issue.Concerns element) ∧
    (((addressedIn document).map (·.1)).Nodup ↔
      ∀ entry ∈ addressedIn document, NamesToldApart entry.2) := by
  have tags : (addressedIn document).map (·.2.tag) = document.root.tags := by
    rw [addressedIn, map_tag_addressed (by simp [Content.elements])]
    simp [Content.tags, Element.tags]
  refine ⟨tags, fun _ _ member => exists_concerned member, ?_⟩
  have rooted : addressedIn document =
      addressed ([document.root.name.localName].map fun step => "" ++ "/" ++ step)
        (.element document.root.tag document.root.content .empty) := by
    simp [addressedIn]
  have plainTags : ∀ tag ∈ (Content.element document.root.tag document.root.content .empty).tags,
      '/' ∉ tag.name.localName.toList := by
    intro tag member
    rw [Content.tags, Content.tags, List.append_nil] at member
    exact (plain tag member).1
  have plainNames : ∀ entry ∈ addressedIn document,
      ∀ name ∈ entry.2.content.elements.map (·.name), '[' ∉ name.localName.toList := by
    intro entry member name held
    obtain ⟨child, inside, rfl⟩ := List.mem_map.mp held
    obtain ⟨path, addressed⟩ := exists_addressed_child member inside
    exact (plain child.tag (tags ▸ List.mem_map.mpr ⟨_, addressed, rfl⟩)).2
  have distinct := nodup_addressed_iff "" [document.root.name.localName]
    (List.forall_mem_singleton.mpr (plainTags _ List.mem_cons_self)) rfl plainTags
  rw [← rooted] at distinct
  rw [distinct]
  constructor
  · rintro ⟨-, steps⟩ entry member
    have differ := steps entry member
    rw [childSteps_eq] at differ
    exact (nodup_steps_iff (plainNames entry member)).mp differ
  · intro apart
    refine ⟨List.nodup_singleton _, fun entry member => ?_⟩
    rw [childSteps_eq]
    exact (nodup_steps_iff (plainNames entry member)).mpr (apart entry member)

/-- The document `<r><b/><b xmlns='u'/></r>` as it is read. -/
def sharedLocalName : Document :=
  ⟨[], ⟨⟨.plain "r", none, [], [], none, some ⟨0, 0, 25⟩⟩,
    .element ⟨.plain "b", none, [], [], none, some ⟨0, 3, 7⟩⟩ .empty
      (.element ⟨⟨some "u", "b"⟩, none, [⟨none, "u"⟩], [], none, some ⟨0, 7, 21⟩⟩ .empty .empty)⟩, []⟩

/-- Two children that share their local name only are counted apart and written alike. -/
theorem nodup_paths_iff_namesToldApart_shared :
    Xml.parse 0 "<r><b/><b xmlns='u'/></r>" = .ok sharedLocalName ∧
      (∀ tag ∈ sharedLocalName.root.tags,
        '/' ∉ tag.name.localName.toList ∧ '[' ∉ tag.name.localName.toList) ∧
      (addressedIn sharedLocalName).map (·.2.tag) = sharedLocalName.root.tags ∧
      (∀ components : Components, ∀ issue ∈ components.issues sharedLocalName,
        ∃ element, (issue.path, element) ∈ addressedIn sharedLocalName ∧ issue.Concerns element) ∧
      (addressedIn sharedLocalName).map (·.1) = ["/r", "/r/b", "/r/b"] ∧
      ¬ ∀ entry ∈ addressedIn sharedLocalName, NamesToldApart entry.2 := by
  have plain : ∀ tag ∈ sharedLocalName.root.tags,
      '/' ∉ tag.name.localName.toList ∧ '[' ∉ tag.name.localName.toList := by decide
  obtain ⟨tags, concerned, distinct⟩ := nodup_paths_iff_namesToldApart plain
  have paths : (addressedIn sharedLocalName).map (·.1) = ["/r", "/r/b", "/r/b"] := by decide
  refine ⟨by rfl, plain, tags, concerned, paths, fun apart => ?_⟩
  have different := distinct.mpr apart
  rw [paths] at different
  exact absurd different (by decide)

end Issues

end KeyholeMarkup.Schema

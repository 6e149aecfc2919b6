import KeyholeMarkup.Proofs.Xml.Assembled
import KeyholeMarkup.Proofs.Xml.SettledMarkup

/-! Prefixes that are made up. The search for one tries the numbers that follow the last one used, and
ends because each declaration takes at most one of them. As no number is used again, no two prefixes that
are made up for a document are the same. -/
namespace KeyholeMarkup.Xml
namespace Naming

variable {naming : Naming}

/-- The search for a free prefix, one number after the other. -/
inductive Search (naming : Naming) : Nat → Nat → Prop
  | free {number} (found : naming.isFree (madeUp (number + 1)) = true) :
    Search naming number (number + 1)
  | taken {number result} (next : naming.isFree (madeUp (number + 1)) = false)
      (rest : Search naming (number + 1) result) : Search naming number result

theorem Search.unique {number first second : Nat} (left : naming.Search number first)
    (right : naming.Search number second) : first = second := by
  induction left with
  | free found =>
    cases right with
    | free _ => rfl
    | taken next _ => simp [found] at next
  | taken next _ ih =>
    cases right with
    | free found => simp [found] at next
    | taken _ rest => exact ih rest

theorem search_of_taken {number result : Nat} (less : number < result)
    (taken : ∀ other, number < other → other < result → naming.isFree (madeUp other) = false)
    (free : naming.isFree (madeUp result) = true) : naming.Search number result := by
  obtain ⟨gap, rfl⟩ := Nat.exists_eq_add_of_lt less
  induction gap generalizing number with
  | zero => exact .free free
  | succ gap ih =>
    refine .taken (taken _ (Nat.lt_succ_self _) (by omega)) ?_
    have sum : number + (gap + 1) + 1 = number + 1 + gap + 1 := by omega
    rw [sum] at taken free ⊢
    exact ih (by omega) (fun other above => taken other (by omega)) free

/-- The number is one of the next ones, and no smaller one of them is free. -/
theorem exists_offset (naming : Naming) : ∃ offset, offset ≤ naming.declarations.length ∧
    naming.freshNumber = naming.generated + 1 + offset ∧
    ∀ earlier < offset, naming.isFree (madeUp (naming.generated + 1 + earlier)) = false := by
  have number : naming.freshNumber = (((List.range (naming.declarations.length + 1)).find?
      fun offset => naming.isFree (madeUp (naming.generated + 1 + offset))).map
        (naming.generated + 1 + ·)).getD (naming.generated + naming.declarations.length + 1) := by
    simp only [freshNumber, List.find?_map]
    rfl
  cases found : (List.range (naming.declarations.length + 1)).find?
      fun offset => naming.isFree (madeUp (naming.generated + 1 + offset)) with
  | none =>
    rw [found] at number
    refine ⟨naming.declarations.length, Nat.le_refl _, number.trans (Nat.add_right_comm _ _ _), ?_⟩
    intro earlier less
    have taken := List.find?_eq_none.mp found earlier (List.mem_range.mpr (by omega))
    exact eq_false_of_ne_true taken
  | some offset =>
    rw [found] at number
    obtain ⟨-, inRange, before⟩ := List.find?_range_eq_some.mp found
    refine ⟨offset, Nat.le_of_lt_succ (List.mem_range.mp inRange), number, ?_⟩
    simpa using before

/-- The search from the last number used ends, at the number that is taken. -/
theorem search_iff (naming : Naming) (result : Nat) :
    naming.Search naming.generated result ↔ result = naming.freshNumber := by
  have search : naming.Search naming.generated naming.freshNumber := by
    obtain ⟨offset, -, number, taken⟩ := naming.exists_offset
    refine search_of_taken (by omega) (fun other above below => ?_) naming.isFree_freshNumber
    obtain ⟨earlier, rfl⟩ := Nat.exists_eq_add_of_le (Nat.succ_le_of_lt above)
    exact taken earlier (by omega)
  constructor
  · exact fun other => other.unique search
  · rintro rfl
    exact search

theorem generated_lt_freshNumber (naming : Naming) : naming.generated < naming.freshNumber := by
  obtain ⟨offset, -, number, -⟩ := naming.exists_offset
  omega

theorem freshNumber_le (naming : Naming) :
    naming.freshNumber ≤ naming.generated + naming.declarations.length + 1 := by
  obtain ⟨offset, bound, number, -⟩ := naming.exists_offset
  omega

/-- A prefix that is not declared in the innermost frame, and of which the latest declaration in scope,
if there is one, leaves it without a namespace. -/
structure Fresh (naming : Naming) (bound : String) : Prop where
  undeclared : ∀ entry ∈ naming.here, entry.nsPrefix ≠ some bound
  unbound : ∀ later entry earlier, naming.declarations = later ++ entry :: earlier →
    (∀ other ∈ later, other.nsPrefix ≠ some bound) → entry.nsPrefix = some bound → entry.uri = ""

theorem fresh_of_isFree {bound : String} (free : naming.isFree bound = true) : naming.Fresh bound := by
  rw [isFree, Bool.and_eq_true, Option.isNone_iff_eq_none, Bool.not_eq_true'] at free
  obtain ⟨unbound, undeclared⟩ := free
  refine ⟨fun entry member => ?_, fun later entry earlier split shadowing own => ?_⟩
  · simpa using List.any_eq_false.mp undeclared entry member
  · have located : naming.declarations.find? (·.nsPrefix == some bound) = some entry := by
      apply List.find?_eq_some_iff_append.mpr
      exact ⟨by simp [own], later, earlier, split, by simpa using shadowing⟩
    rw [lookup?, located] at unbound
    simpa using unbound

/-- Prefixes with increasing numbers, of which the last is given. -/
inductive Numbered : Nat → List String → Nat → Prop
  | nil {number} : Numbered number [] number
  | cons {first number made last} (less : first < number) (rest : Numbered number made last) :
    Numbered first (madeUp number :: made) last

theorem Numbered.append {first middle last : Nat} {made others : List String}
    (left : Numbered first made middle) (right : Numbered middle others last) :
    Numbered first (made ++ others) last := by
  induction left with
  | nil => exact right
  | cons less _ ih => exact .cons less (ih right)

theorem Numbered.mem {first last : Nat} {made : List String} (numbered : Numbered first made last)
    {bound : String} (member : bound ∈ made) : ∃ number, first < number ∧ bound = madeUp number := by
  induction numbered with
  | nil => cases member
  | cons less _ ih =>
    rcases List.mem_cons.mp member with rfl | later
    · exact ⟨_, less, rfl⟩
    · obtain ⟨number, above, same⟩ := ih later
      exact ⟨number, Nat.lt_trans less above, same⟩

theorem Numbered.nodup {first last : Nat} {made : List String} (numbered : Numbered first made last) :
    made.Nodup := by
  induction numbered with
  | nil => exact List.nodup_nil
  | @cons _ number _ _ _ rest ih =>
    refine List.nodup_cons.mpr ⟨fun again => ?_, ih⟩
    obtain ⟨other, above, same⟩ := rest.mem again
    exact Nat.ne_of_lt above (madeUp_inj same)

/-- The prefix that has been made up between two namings, if the number of them has changed. -/
def made (naming after : Naming) : List String :=
  if after.generated = naming.generated then [] else [madeUp after.generated]

/-- A name is found without making up a prefix, or is written with one that has been made up. -/
inductive Names (naming : Naming) (name : Name) : Naming × String → Prop
  | kept {after text} (same : after.generated = naming.generated) : Names naming name (after, text)
  | madeUp {uri} (named : name.uri = some uri) : Names naming name
      ((naming.declareFresh uri).1, written (naming.declareFresh uri).2 name.localName)

theorem generated_declare (naming : Naming) (nsPrefix : Option String) (uri : String) :
    (naming.declare nsPrefix uri).generated = naming.generated := by
  rw [declare]
  split <;> rfl

theorem generated_declareFresh (naming : Naming) (uri : String) :
    (naming.declareFresh uri).1.generated = naming.freshNumber := generated_declare _ _ _

theorem made_declareFresh (naming : Naming) (uri : String) :
    naming.made (naming.declareFresh uri).1 = [(naming.declareFresh uri).2] := by
  rw [made, generated_declareFresh, if_neg naming.generated_lt_freshNumber.ne']
  rfl

theorem names_elementName (naming : Naming) (tag : Tag) :
    naming.Names tag.name (naming.elementName tag) := by
  have otherwise {uri : String} (named : tag.name.uri = some uri) : naming.Names tag.name
      (if naming.isDeclaredHere none then
        ((naming.declareFresh uri).1, written (naming.declareFresh uri).2 tag.name.localName)
      else (naming.declare none uri, tag.name.localName)) := by
    split
    · exact .madeUp named
    · exact .kept (generated_declare _ _ _)
  rw [elementName]
  split
  · split
    · exact .kept (generated_declare _ _ _)
    · exact .kept rfl
  · rename_i uri named
    split
    · split
      · exact .kept rfl
      · split
        · exact otherwise named
        · exact .kept (generated_declare _ _ _)
    · split
      · exact .kept rfl
      · exact otherwise named

theorem names_attributeName (naming : Naming) (entry : Attribute) :
    naming.Names entry.name (naming.attributeName entry) := by
  rw [attributeName]
  split
  · exact .kept rfl
  · rename_i uri named
    split
    · exact .kept rfl
    · split
      · exact .kept rfl
      · split
        · exact .kept rfl
        · split
          · exact .kept (generated_declare _ _ _)
          · exact .madeUp named

theorem Names.numbered {name : Name} {named : Naming × String} (names : naming.Names name named) :
    Numbered naming.generated (naming.made named.1) named.1.generated := by
  cases names with
  | kept same =>
    rw [made, if_pos same, same]
    exact .nil
  | madeUp _ =>
    rw [made_declareFresh, generated_declareFresh]
    exact .cons naming.generated_lt_freshNumber .nil

/-- The prefixes that are made up for attributes. -/
def madeForAttributes (naming : Naming) : List Attribute → List String
  | [] => []
  | entry :: rest =>
    let after := (naming.attributeName entry).1
    naming.made after ++ after.madeForAttributes rest

/-- The prefixes that are made up for the names in a tag. -/
def madeForTag (naming : Naming) (tag : Tag) : List String :=
  let entered := naming.enter tag.declarations
  let after := (entered.elementName tag).1
  entered.made after ++ after.madeForAttributes tag.attributes

theorem numbered_attributes (naming : Naming) (attributes : List Attribute) :
    Numbered naming.generated (naming.madeForAttributes attributes)
      (naming.attributeNames attributes).1.generated := by
  induction attributes generalizing naming with
  | nil => exact .nil
  | cons entry rest ih => exact (names_attributeName naming entry).numbered.append (ih _)

theorem numbered_tag (naming : Naming) (tag : Tag) :
    Numbered naming.generated (naming.madeForTag tag) (naming.tag tag).1.generated :=
  (names_elementName (naming.enter tag.declarations) tag).numbered.append (numbered_attributes _ _)

end Naming

/-- The prefixes that are made up while a content is written, in the order of the names. -/
def Content.madePrefixes (cdata : List Name) (naming : Naming) : Content → List String
  | .empty => []
  | .comment _ rest => rest.madePrefixes cdata naming
  | .element tag inner rest =>
    let within := (naming.tag tag).1
    naming.madeForTag tag ++ inner.madePrefixes cdata within ++
      rest.madePrefixes cdata (Markup.ofContent cdata within inner).1.leave

def Document.madePrefixes (cdata : List Name) (document : Document) : List String :=
  (Content.element document.root.tag document.root.content .empty).madePrefixes cdata Naming.initial

theorem Content.numbered (cdata : List Name) (content : Content) (naming : Naming) :
    Naming.Numbered naming.generated (content.madePrefixes cdata naming)
      (Markup.ofContent cdata naming content).1.generated := by
  induction content generalizing naming with
  | empty => exact .nil
  | comment entry rest ih => exact ih naming
  | element tag inner rest ihInner ihRest =>
    let after := (Markup.ofContent cdata (naming.tag tag).1 inner).1
    have last : (Markup.ofContent cdata naming (.element tag inner rest)).1 =
        (Markup.ofContent cdata after.leave rest).1 := by
      rw [ofContent_element (Prod.eta _).symm]
    rw [last]
    exact ((naming.numbered_tag tag).append (ihInner _)).append (ihRest after.leave)

/-- Whatever is declared and however many prefixes have been made up, the search for another one ends, and
the prefix is fresh. Those made up while a document is written are all different. -/
theorem made_up_prefixes_fresh :
    (∀ naming : Naming, (∀ result, naming.Search naming.generated result ↔ result = naming.freshNumber) ∧
      naming.freshNumber ≤ naming.generated + naming.declarations.length + 1) ∧
    (∀ (naming : Naming) uri, (naming.declareFresh uri).2 = Naming.madeUp naming.freshNumber ∧
      naming.Fresh (naming.declareFresh uri).2 ∧
      naming.made (naming.declareFresh uri).1 = [(naming.declareFresh uri).2]) ∧
    (∀ (naming : Naming) tag, naming.Names tag.name (naming.elementName tag)) ∧
    (∀ (naming : Naming) entry, naming.Names entry.name (naming.attributeName entry)) ∧
    ∀ cdata document, (Document.madePrefixes cdata document).Nodup := by
  refine ⟨fun naming => ⟨naming.search_iff, naming.freshNumber_le⟩, fun naming uri => ?_,
    Naming.names_elementName, Naming.names_attributeName, fun cdata document => ?_⟩
  · exact ⟨rfl, Naming.fresh_of_isFree naming.isFree_freshNumber, naming.made_declareFresh uri⟩
  · exact (Content.numbered cdata _ Naming.initial).nodup

end KeyholeMarkup.Xml

import KeyholeMarkup.Proofs.Script.Literal
import KeyholeMarkup.Script.Builders
import KeyholeMarkup.Xml.Document

/-! What a script keeps of a document. It cannot say blank lines and indents within text, text that
is empty, elements without a namespace, and attribute names whose Clark notation means another
name. -/
namespace KeyholeMarkup.Script
open KeyholeMarkup.Text KeyholeMarkup.Xml

/-- Builders that can be told apart in a script. The default one is among the entries. -/
structure Builders.WellFormed (builders : Builders) : Prop where
  uri_ne_empty : ∀ entry ∈ builders.entries, entry.uri ≠ ""
  uris_nodup : (builders.entries.map (·.uri)).Nodup
  identifiers_nodup : (builders.entries.map (·.identifier)).Nodup
  identifier : ∀ entry ∈ builders.entries, isIdentifier entry.identifier
  identifier_ne_etree : ∀ entry ∈ builders.entries, entry.identifier ≠ "etree"
  factory : ∀ entry ∈ builders.entries, isIdentifier entry.factory
  default_mem : builders.default ∈ builders.entries.map (·.identifier)

theorem Builders.standard_wellFormed : Builders.standard.WellFormed := by
  constructor <;> decide

/-- The namespace that a script makes an element in. -/
def Builders.uriFor (builders : Builders) (name : Name) : String :=
  match name.uri.filter (· ≠ "") with
  | some uri => uri
  | none => (builders.uriOf? builders.default).getD ""

/-- The name of an attribute as a script keeps it: by Clark notation unless it is a keyword. -/
def keptName (name : Name) : Name :=
  if name.uri = none ∧ isIdentifier name.localName then name else Name.ofClark name.clark

def keptAttribute (entry : Attribute) : Attribute := ⟨keptName entry.name, none, entry.value⟩

def keptComment (comment : Comment) : Comment := ⟨String.ofList (keptText comment.text.toList), none⟩

/-- The tag as a script keeps it. Text of which nothing is kept is no text. -/
def Builders.keptTag (builders : Builders) (tag : Tag) : Tag where
  name := ⟨some (builders.uriFor tag.name), tag.name.localName⟩
  nsPrefix := none
  declarations := []
  attributes := tag.attributes.map keptAttribute
  text := some (String.ofList (keptText (tag.text.getD "").toList)) |>.filter (· ≠ "")
  span := none

def Builders.keptContent (builders : Builders) : Content → Content
  | .empty => .empty
  | .comment comment rest => .comment (keptComment comment) (builders.keptContent rest)
  | .element tag inner rest =>
    .element (builders.keptTag tag) (builders.keptContent inner) (builders.keptContent rest)

def Builders.kept (builders : Builders) (document : Xml.Document) : Xml.Document where
  leading := document.leading.map keptComment
  root := ⟨builders.keptTag document.root.tag, builders.keptContent document.root.content⟩
  trailing := document.trailing.map keptComment

theorem Builders.find?_identifier {builders : Builders} (wellFormed : builders.WellFormed)
    {entry : Builder} (member : entry ∈ builders.entries) :
    builders.uriOf? entry.identifier = some entry.uri := by
  have distinct := wellFormed.identifiers_nodup
  revert member distinct
  unfold Builders.uriOf?
  generalize builders.entries = entries
  intro member distinct
  induction entries with
  | nil => simp at member
  | cons first entries ih =>
    rw [List.map_cons, List.nodup_cons] at distinct
    rw [List.find?_cons]
    by_cases same : first.identifier == entry.identifier
    · rw [same]
      rcases List.mem_cons.mp member with rfl | later
      · rfl
      · refine absurd ?_ distinct.1
        rw [beq_iff_eq.mp same]
        exact List.mem_map_of_mem later
    · rcases List.mem_cons.mp member with rfl | later
      · simp at same
      · rw [Bool.eq_false_iff.mpr same]
        exact ih later distinct.2

theorem Builders.entry_of_resolve {builders : Builders} (wellFormed : builders.WellFormed)
    {name : Name} {builder : String} (resolved : builders.resolve name.uri = some builder) :
    ∃ entry ∈ builders.entries, entry.identifier = builder ∧ entry.uri = builders.uriFor name := by
  unfold Builders.resolve at resolved
  unfold Builders.uriFor
  split at resolved
  · rename_i absent
    simp only [Option.some.injEq] at resolved
    obtain ⟨entry, member, known⟩ := List.mem_map.mp wellFormed.default_mem
    refine ⟨entry, member, known.trans resolved, ?_⟩
    rw [absent, ← known, find?_identifier wellFormed member]
    rfl
  · rename_i uri present
    obtain ⟨entry, found, known⟩ := Option.map_eq_some_iff.mp resolved
    refine ⟨entry, List.mem_of_find?_eq_some found, known, ?_⟩
    rw [present]
    exact beq_iff_eq.mp (List.find?_some (p := fun entry : Builder => entry.uri == uri) found)

end KeyholeMarkup.Script

import KeyholeMarkup.Proofs.Xml.Resolution
import KeyholeMarkup.Text.Blank
import Mathlib.Data.List.Nodup

/-! Documents as they are read back. A settled tag has the prefixes it is written with and declares
what its frame declares, so that it is written the same once more. -/
namespace KeyholeMarkup.Xml
open KeyholeMarkup.Text

/-- The namespace of an element's name is in scope. -/
inductive Naming.NamesElement (naming : Naming) : Option String → Option String → Prop
  | unbound : naming.lookup? none = none → NamesElement naming none none
  | default {uri} : naming.lookup? none = some uri → NamesElement naming none (some uri)
  | bound {nsPrefix uri} : naming.lookup? (some nsPrefix) = some uri →
    NamesElement naming (some nsPrefix) (some uri)

/-- The namespace of an attribute's name is in scope. The prefix `xml` is in scope everywhere. -/
inductive Naming.NamesAttribute (naming : Naming) : Option String → Option String → Prop
  | plain : NamesAttribute naming none none
  | xml : NamesAttribute naming (some "xml") (some xmlUri)
  | bound {nsPrefix uri} : uri ≠ xmlUri → naming.lookup? (some nsPrefix) = some uri →
    NamesAttribute naming (some nsPrefix) (some uri)

def Attribute.written (entry : Attribute) : String × String :=
  (qualified entry.nsPrefix entry.name.localName, entry.value)

/-- The name in a tag, as it is written with its prefix. -/
def Tag.writtenName (tag : Tag) : String := qualified tag.nsPrefix tag.name.localName

/-- What is written in a tag after its name. -/
def Tag.entries (tag : Tag) : List (String × String) :=
  tag.declarations.map Declaration.written ++ tag.attributes.map Attribute.written

/-- An attribute whose name is read as it is written. -/
structure Attribute.Fits (entry : Attribute) : Prop where
  localName : IsNamePart entry.name.localName
  own : entry.name.uri = none → entry.name.localName ≠ "xmlns"

/-- Text that is kept when it is read. Before children it must not be blank. -/
def Tag.TextKept (tag : Tag) (inner : Content) : Prop :=
  ∀ text, tag.text = some text → text ≠ "" ∧ (inner ≠ .empty → allBlank text.toList = false)

/-- Text that is read as it is written. -/
def Tag.TextFits (tag : Tag) (inner : Content) : Prop :=
  ∀ text, tag.text = some text →
    text ≠ "" ∧ '\r' ∉ text.toList ∧ (inner ≠ .empty → allBlank text.toList = false)

structure Comment.Fits (entry : Comment) : Prop where
  line : '\r' ∉ entry.text.toList
  closed : ¬ ['-', '-', '>'] <:+: entry.text.toList

/-- A tag and the settled tag that it is read back as. -/
structure Tagged (naming : Naming) (tag : Tag) (after : Naming) (settled : Tag) : Prop where
  written : naming.tag tag = (after, settled.writtenName, settled.entries)
  frames : after.frames = settled.declarations :: naming.frames
  same : tag.same settled
  unplaced : settled.span = none
  sound : ∀ declaration ∈ settled.declarations, declaration.Sound
  named : after.NamesElement settled.nsPrefix settled.name.uri
  attributes : ∀ entry ∈ settled.attributes, after.NamesAttribute entry.nsPrefix entry.name.uri
  localName : IsNamePart settled.name.localName
  fits : ∀ entry ∈ settled.attributes, entry.Fits
  prefixes : (settled.declarations.map (·.nsPrefix)).Nodup
  names : (settled.attributes.map (·.written.1)).Nodup

/-- A content and the settled content that it is read back as, with the naming before and after. -/
inductive Settles : Naming → Content → Naming → Content → Prop
  | empty (naming) : Settles naming .empty naming .empty
  | comment {naming entry rest after settled} : entry.Fits → Settles naming rest after settled →
    Settles naming (.comment entry rest) after (.comment ⟨entry.text, none⟩ settled)
  | element {naming tag inner rest within between after settledTag settledInner settled} :
    Tagged naming tag within settledTag → settledTag.TextKept settledInner →
    Settles within inner between settledInner → Settles between.leave rest after settled →
    Settles naming (.element tag inner rest) after (.element settledTag settledInner settled)

namespace Naming

variable {naming other : Naming}

theorem declarations_congr (same : other.frames = naming.frames) :
    other.declarations = naming.declarations := by
  rw [declarations, declarations, same]

theorem lookup?_congr (same : other.frames = naming.frames) (nsPrefix : Option String) :
    other.lookup? nsPrefix = naming.lookup? nsPrefix := by
  rw [lookup?, lookup?, declarations_congr same]

theorem scope_congr (same : other.frames = naming.frames) : other.scope = naming.scope := by
  rw [scope, scope, declarations_congr same]

theorem NamesElement.congr {nsPrefix uri : Option String} (same : other.frames = naming.frames)
    (named : naming.NamesElement nsPrefix uri) : other.NamesElement nsPrefix uri := by
  cases named with
  | unbound found => exact .unbound ((lookup?_congr same _).trans found)
  | default found => exact .default ((lookup?_congr same _).trans found)
  | bound found => exact .bound ((lookup?_congr same _).trans found)

theorem NamesAttribute.congr {nsPrefix uri : Option String} (same : other.frames = naming.frames)
    (named : naming.NamesAttribute nsPrefix uri) : other.NamesAttribute nsPrefix uri := by
  cases named with
  | plain => exact .plain
  | xml => exact .xml
  | bound apart found => exact .bound apart ((lookup?_congr same _).trans found)

theorem NamesElement.elementName {tag : Tag} (named : naming.NamesElement tag.nsPrefix tag.name.uri) :
    naming.elementName tag = (naming, tag.writtenName) := by
  unfold Naming.elementName Tag.writtenName
  generalize tag.nsPrefix = nsPrefix at named
  generalize tag.name.uri = uri at named
  cases named with
  | unbound found => simp [found, qualified]
  | default found => simp [found, qualified]
  | bound found => simp [found, qualified]

theorem NamesAttribute.attributeName {entry : Attribute}
    (named : naming.NamesAttribute entry.nsPrefix entry.name.uri) :
    naming.attributeName entry = (naming, entry.written.1) := by
  unfold Naming.attributeName Attribute.written
  generalize entry.nsPrefix = nsPrefix at named
  generalize entry.name.uri = uri at named
  cases named with
  | plain => simp [qualified]
  | xml => simp [qualified]
  | bound apart found => simp [apart, found, qualified, Option.filter]

theorem attributeNames_of_named {attributes : List Attribute}
    (named : ∀ entry ∈ attributes, naming.NamesAttribute entry.nsPrefix entry.name.uri) :
    naming.attributeNames attributes = (naming, attributes.map Attribute.written) := by
  induction attributes with
  | nil => rfl
  | cons entry rest ih =>
    simp only [attributeNames, (named entry (by simp)).attributeName,
      ih fun other member => named other (by simp [member]), List.map_cons]
    rfl

theorem Sound.isNamePart {nsPrefix uri : String} (sound : naming.Sound)
    (found : naming.lookup? (some nsPrefix) = some uri) : IsNamePart nsPrefix ∧ nsPrefix ≠ "xmlns" := by
  obtain ⟨part, notXmlns, -⟩ := (sound _ (mem_of_lookup? found)).part nsPrefix rfl
  exact ⟨part, notXmlns⟩

theorem NamesAttribute.unique {nsPrefix first second : Option String}
    (named : naming.NamesAttribute nsPrefix first) (sound : naming.Sound)
    (again : naming.NamesAttribute nsPrefix second) : first = second := by
  cases named with
  | plain =>
    cases again with
    | plain => rfl
  | xml =>
    cases again with
    | xml => rfl
    | bound apart found => exact absurd (sound.uri_of_lookup?_xml found) apart
  | bound apart found =>
    cases again with
    | xml => exact absurd (sound.uri_of_lookup?_xml found) apart
    | bound _ other => exact found.symm.trans other

theorem sound_initial : initial.Sound := fun _ member => absurd member (by simp [initial, declarations])

theorem declarations_of_frames {declared : List Declaration}
    (frames : other.frames = declared :: naming.frames) :
    other.declarations = declared.reverse ++ naming.declarations := by
  simp [declarations, frames]

theorem scope_of_frames {declared : List Declaration}
    (frames : other.frames = declared :: naming.frames) :
    other.scope = bindings declared.reverse ++ naming.scope := by
  rw [scope, scope, declarations_of_frames frames, bindings_append, List.append_assoc]

theorem Sound.of_frames {declared : List Declaration} (sound : naming.Sound)
    (frames : other.frames = declared :: naming.frames)
    (soundHere : ∀ declaration ∈ declared, declaration.Sound) : other.Sound := by
  intro declaration member
  rw [declarations_of_frames frames] at member
  obtain here | outer := List.mem_append.mp member
  · exact soundHere declaration (List.mem_reverse.mp here)
  · exact sound declaration outer

theorem leave_frames {declared : List Declaration}
    (frames : other.frames = declared :: naming.frames) : other.leave.frames = naming.frames := by
  simp [leave, frames]

end Naming

variable {naming after other : Naming} {tag settledTag : Tag} {content settled : Content}

theorem isNamePart_xml : IsNamePart "xml" :=
  ⟨⟨by decide, List.all_eq_true.mp (by decide)⟩, by decide⟩

theorem isTagName_qualified {nsPrefix : Option String} {localName : String}
    (bound : ∀ part, nsPrefix = some part → IsNamePart part) (named : IsNamePart localName) :
    IsTagName (qualified nsPrefix localName).toList := by
  cases nsPrefix with
  | none => exact named.tagName
  | some part =>
    have written : (qualified (some part) localName).toList =
        part.toList ++ ':' :: localName.toList := by
      simp [qualified, Naming.written]
    have colon : isTagChar ':' = true := by decide
    rw [written]
    refine ⟨by simp, fun c member => ?_⟩
    obtain left | rfl | right : c ∈ part.toList ∨ c = ':' ∨ c ∈ localName.toList := by
      simpa using member
    · exact (bound part rfl).tagName.plain c left
    · exact colon
    · exact named.tagName.plain c right

theorem Declaration.isTagName_written {declaration : Declaration}
    (bound : ∀ part, declaration.nsPrefix = some part → IsNamePart part) :
    IsTagName declaration.written.1.toList := by
  have xmlns : IsNamePart "xmlns" :=
    ⟨⟨by decide, List.all_eq_true.mp (by decide)⟩, by decide⟩
  obtain ⟨nsPrefix, uri⟩ := declaration
  cases nsPrefix with
  | none => exact xmlns.tagName
  | some part =>
    have written : Declaration.written ⟨some part, uri⟩ = (qualified (some "xmlns") part, uri) := rfl
    rw [written]
    exact isTagName_qualified (by rintro _ ⟨⟩; exact xmlns) (bound part rfl)

theorem Naming.NamesAttribute.part {entry : Attribute}
    (named : naming.NamesAttribute entry.nsPrefix entry.name.uri) (sound : naming.Sound) :
    ∀ part, entry.nsPrefix = some part → IsNamePart part ∧ part ≠ "xmlns" := by
  intro part same
  rw [same] at named
  generalize entry.name.uri = uri at named
  cases named with
  | xml => exact ⟨isNamePart_xml, by decide⟩
  | bound _ found => exact sound.isNamePart found

/-- Written names are as distinct as names are: a prefix stands for one namespace only. -/
theorem Naming.Sound.name_of_written (sound : naming.Sound) {first second : Attribute}
    (left : naming.NamesAttribute first.nsPrefix first.name.uri)
    (right : naming.NamesAttribute second.nsPrefix second.name.uri)
    (leftFits : first.Fits) (rightFits : second.Fits)
    (same : first.written.1 = second.written.1) : first.name = second.name := by
  have leftSplit := splitName_qualified (fun part written => (left.part sound part written).1)
    leftFits.localName
  have rightSplit := splitName_qualified (fun part written => (right.part sound part written).1)
    rightFits.localName
  have split := leftSplit.symm.trans
    ((congrArg (fun written => splitName written.toList) same).trans rightSplit)
  obtain ⟨prefixes, locals⟩ := Prod.mk.inj split
  have nsPrefix : first.nsPrefix = second.nsPrefix :=
    Option.map_injective (fun _ _ => String.toList_inj.mp) prefixes
  have uri : first.name.uri = second.name.uri := left.unique sound (nsPrefix ▸ right)
  have localName := String.toList_inj.mp locals
  calc first.name = ⟨first.name.uri, first.name.localName⟩ := rfl
    _ = ⟨second.name.uri, second.name.localName⟩ := by rw [uri, localName]
    _ = second.name := rfl

namespace Tagged

variable (tagged : Tagged naming tag after settledTag)
include tagged

theorem sound_after (sound : naming.Sound) : after.Sound :=
  sound.of_frames tagged.frames tagged.sound

theorem text_eq : settledTag.text = tag.text := by
  have same := tagged.same
  simp only [Tag.same, Bool.and_eq_true, beq_iff_eq] at same
  exact same.2.symm

theorem name_eq : settledTag.name = tag.name := by
  have same := tagged.same
  simp only [Tag.same, Bool.and_eq_true, beq_iff_eq] at same
  exact same.1.1.symm

theorem elementPart (sound : naming.Sound) :
    ∀ part, settledTag.nsPrefix = some part → IsNamePart part := by
  intro part same
  have named := tagged.named
  rw [same] at named
  generalize settledTag.name.uri = uri at named
  cases named with
  | bound found => exact ((tagged.sound_after sound).isNamePart found).1

theorem isTagName (sound : naming.Sound) : IsTagName settledTag.writtenName.toList :=
  isTagName_qualified (tagged.elementPart sound) tagged.localName

theorem attributePart (sound : naming.Sound) {entry : Attribute}
    (member : entry ∈ settledTag.attributes) :
    ∀ part, entry.nsPrefix = some part → IsNamePart part ∧ part ≠ "xmlns" :=
  (tagged.attributes entry member).part (tagged.sound_after sound)

theorem isTagName_entries (sound : naming.Sound) :
    ∀ entry ∈ settledTag.entries, IsTagName entry.1.toList := by
  intro entry listed
  obtain declared | given := List.mem_append.mp listed
  · obtain ⟨declaration, inTag, rfl⟩ := List.mem_map.mp declared
    exact declaration.isTagName_written fun part same =>
      ((tagged.sound declaration inTag).part part same).1
  · obtain ⟨own, inTag, rfl⟩ := List.mem_map.mp given
    exact isTagName_qualified (fun part same => (tagged.attributePart sound inTag part same).1)
      (tagged.fits own inTag).localName

theorem declaredPrefix?_attribute (sound : naming.Sound) {entry : Attribute}
    (member : entry ∈ settledTag.attributes) : declaredPrefix? entry.written.1.toList = none := by
  have fits := tagged.fits entry member
  refine declaredPrefix?_qualified (tagged.attributePart sound member) fits.localName ?_
  intro bare
  refine fits.own ?_
  have named := tagged.attributes entry member
  rw [bare] at named
  generalize entry.name.uri = uri at named
  cases named with
  | plain => rfl

theorem distinct (sound : naming.Sound) :
    (settledTag.entries.map (·.1.toList)).Nodup := by
  rw [Tag.entries, List.map_append, List.nodup_append]
  refine ⟨?_, ?_, ?_⟩
  · rw [List.map_map, List.Nodup, List.pairwise_map]
    refine (List.pairwise_map.mp tagged.prefixes).imp fun apart same => apart ?_
    have declared := congrArg declaredPrefix? same
    simp only [Function.comp_apply, declaredPrefix?_written, Option.some.injEq] at declared
    exact Option.map_injective (fun _ _ => String.toList_inj.mp) declared
  · rw [List.map_map, List.Nodup, List.pairwise_map]
    exact (List.pairwise_map.mp tagged.names).imp fun apart same => apart (String.toList_inj.mp same)
  · rintro _ declared _ member rfl
    simp only [List.map_map, List.mem_map, Function.comp_apply] at declared member
    obtain ⟨declaration, -, same⟩ := declared
    obtain ⟨entry, inTag, rfl⟩ := member
    have one := declaredPrefix?_written declaration
    rw [same, tagged.declaredPrefix?_attribute sound inTag] at one
    contradiction

end Tagged

end KeyholeMarkup.Xml

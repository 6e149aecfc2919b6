import KeyholeMarkup.Proofs.Xml.BuiltNaming
import KeyholeMarkup.Proofs.Xml.Tree
import Mathlib.Data.List.Perm.Subperm

/-! Documents whose makers choose prefixes for elements. Every declaration in scope is made for a name
of the document, so that a prefix stands for one namespace as long as elements and attributes agree
on what their own prefixes stand for. -/
namespace KeyholeMarkup.Xml

/-- Elements that are made by makers of any namespace and prefix, and added to. -/
inductive Element.Assembled : Element → Prop
  | made (maker : Maker) (localName : String) : Assembled (maker.element localName)
  | withText {element} (text : String) : Assembled element → Assembled (element.withText text)
  | withAttribute {element} (localName value : String) : Assembled element →
    Assembled (element.withAttribute localName value)
  | withAttributeNamed {element} (uri : Option String) (localName value : String) :
    Assembled element → Assembled (element.withAttributeNamed (Name.within uri localName) value)
  | withChild {element child} : Assembled element → Assembled child →
    Assembled (element.withChild child)
  | withComment {element} (text : String) : Assembled element →
    Assembled (element.withComment text)

inductive Document.Assembled : Document → Prop
  | ofRoot {root} : root.Assembled → Assembled (Document.ofRoot root)
  | withLeading {document} (text : String) : Assembled document →
    Assembled (document.withLeading text)
  | withTrailing {document} (text : String) : Assembled document →
    Assembled (document.withTrailing text)

/-- A tag as it is made: nothing is declared, and the prefixes of attributes are conventional. -/
structure Tag.Assembled (tag : Tag) : Prop where
  declarations : tag.declarations = []
  name : tag.name.uri ≠ some ""
  attributes : ∀ entry ∈ tag.attributes,
    entry.nsPrefix = entry.name.conventional? ∧ entry.name.uri ≠ some ""

/-- A tag whose own prefix and names can be written. An attribute `xmlns` would be a declaration. -/
structure Tag.Named (tag : Tag) : Prop where
  localName : IsNcName tag.name.localName
  nsPrefix : ∀ own, tag.nsPrefix = some own → IsNcName own ∧ own ≠ "xml" ∧ own ≠ "xmlns"
  attributes : ∀ entry ∈ tag.attributes, IsNcName entry.name.localName ∧
    (entry.name.uri = none → entry.name.localName ≠ "xmlns")

/-- An element and an attribute that have the same prefix of their own are in the same namespace. -/
def PrefixesAgree (tags : List Tag) : Prop :=
  ∀ tag ∈ tags, ∀ other ∈ tags, ∀ entry ∈ other.attributes, ∀ own,
    tag.nsPrefix = some own → entry.nsPrefix = some own →
      tag.name.uri = none ∨ tag.name.uri = entry.name.uri

theorem Content.tags_append (first second : Content) :
    (first.append second).tags = first.tags ++ second.tags := by
  induction first with
  | empty => rfl
  | comment _ rest ih => exact ih
  | element tag inner rest _ ih => simp [append, tags, ih]

theorem Tag.Assembled.withAttribute {tag : Tag} (assembled : tag.Assembled) {name : Name}
    (value : String) (named : name.uri ≠ some "") : Tag.Assembled
      { tag with attributes := tag.attributes ++ [⟨name, name.conventional?, value⟩] } := by
  refine ⟨assembled.declarations, assembled.name, ?_⟩
  refine List.forall_mem_append.mpr ⟨assembled.attributes, ?_⟩
  simpa using named

theorem Element.Assembled.tags {element : Element} (assembled : element.Assembled) :
    ∀ tag ∈ element.tags, tag.Assembled := by
  induction assembled with
  | made maker localName =>
    rintro tag (_ | ⟨_, ⟨⟩⟩)
    exact ⟨rfl, Name.within_uri_ne_empty _ _, by simp [Maker.element]⟩
  | withText text _ ih =>
    obtain ⟨own, inner⟩ := List.forall_mem_cons.mp ih
    exact List.forall_mem_cons.mpr ⟨⟨own.declarations, own.name, own.attributes⟩, inner⟩
  | withAttribute localName value _ ih =>
    obtain ⟨own, inner⟩ := List.forall_mem_cons.mp ih
    exact List.forall_mem_cons.mpr ⟨own.withAttribute value (by simp [Name.plain]), inner⟩
  | withAttributeNamed uri localName value _ ih =>
    obtain ⟨own, inner⟩ := List.forall_mem_cons.mp ih
    exact List.forall_mem_cons.mpr
      ⟨own.withAttribute value (Name.within_uri_ne_empty uri localName), inner⟩
  | @withChild element child _ _ ih ihChild =>
    obtain ⟨own, inner⟩ := List.forall_mem_cons.mp ih
    refine List.forall_mem_cons.mpr ⟨⟨own.declarations, own.name, own.attributes⟩, ?_⟩
    simp only [Element.withChild, Element.withNode, Content.tags_append]
    refine List.forall_mem_append.mpr ⟨inner, ?_⟩
    simpa [Content.cons, Content.tags, Element.tags] using ihChild
  | withComment text _ ih =>
    obtain ⟨own, inner⟩ := List.forall_mem_cons.mp ih
    refine List.forall_mem_cons.mpr ⟨⟨own.declarations, own.name, own.attributes⟩, ?_⟩
    simpa [Element.withComment, Element.withNode, Content.tags_append, Content.cons,
      Content.tags] using inner

theorem Document.Assembled.tags {document : Document} (assembled : document.Assembled) :
    ∀ tag ∈ document.root.tags, tag.Assembled := by
  induction assembled with
  | ofRoot root => exact root.tags
  | withLeading text _ ih => exact ih
  | withTrailing text _ ih => exact ih

/-- A declaration that is made for a name in some tags. Of a prefix it says where it comes from. -/
inductive Declaration.Origin (tags : List Tag) : Declaration → Prop
  | default (uri : String) : Origin tags ⟨none, uri⟩
  | ofElement {tag own uri} : tag ∈ tags → tag.nsPrefix = some own → tag.name.uri = some uri →
    Origin tags ⟨some own, uri⟩
  | ofAttribute {tag entry own uri} : tag ∈ tags → entry ∈ tag.attributes →
    entry.nsPrefix = some own → entry.name.uri = some uri → uri ≠ xmlUri →
    Origin tags ⟨some own, uri⟩
  | madeUp {tag entry uri} (number : Nat) : tag ∈ tags → entry ∈ tag.attributes →
    entry.name.uri = some uri → Origin tags ⟨some (Naming.madeUp number), uri⟩

section
variable {tags : List Tag} {declaration : Declaration} {tag : Tag} {entry : Attribute}
  (assembled : ∀ tag ∈ tags, tag.Assembled)
include assembled

theorem conventional_of_attribute (listed : tag ∈ tags) (member : entry ∈ tag.attributes)
    {own uri : String} (prefixed : entry.nsPrefix = some own) (named : entry.name.uri = some uri) :
    conventionalPrefix? uri = some own := by
  have conventional := ((assembled tag listed).attributes entry member).1
  rwa [prefixed, Name.conventional?, named, Option.bind_some, eq_comm] at conventional

/-- A declared prefix can stand before a name, and it is not taken back. -/
theorem Declaration.Origin.bound (origin : declaration.Origin tags)
    (named : ∀ tag ∈ tags, tag.Named) {bound : String} (prefixed : declaration.nsPrefix = some bound) :
    (IsNamePart bound ∧ bound ≠ "xml" ∧ bound ≠ "xmlns") ∧ declaration.uri ≠ "" := by
  cases origin with
  | default => contradiction
  | @ofElement tag own uri listed owned found =>
    obtain rfl := Option.some.inj prefixed
    obtain ⟨part, apart⟩ := (named tag listed).nsPrefix _ owned
    refine ⟨⟨part.isNamePart, apart⟩, ?_⟩
    rintro rfl
    exact (assembled tag listed).name found
  | @ofAttribute tag entry own uri listed member owned found notXml =>
    obtain rfl := Option.some.inj prefixed
    have conventional := conventional_of_attribute assembled listed member owned found
    have chosen : Naming.Chosen 0 _ uri := .inl ⟨conventional, notXml⟩
    refine ⟨chosen.isNamePart, ?_⟩
    rintro rfl
    exact ((assembled tag listed).attributes entry member).2 found
  | @madeUp tag entry uri number listed member found =>
    obtain rfl := Option.some.inj prefixed
    have chosen : Naming.Chosen number _ uri := .inr ⟨number, Nat.le_refl number, rfl⟩
    refine ⟨chosen.isNamePart, ?_⟩
    rintro rfl
    exact ((assembled tag listed).attributes entry member).2 found

/-- What the own prefix of an attribute is declared for is the namespace of the attribute. -/
theorem Declaration.Origin.agrees (origin : declaration.Origin tags)
    (agree : PrefixesAgree tags) (listed : tag ∈ tags) (member : entry ∈ tag.attributes)
    {own uri : String} (owned : entry.nsPrefix = some own) (named : entry.name.uri = some uri)
    (notXml : uri ≠ xmlUri) (prefixed : declaration.nsPrefix = some own) : declaration.uri = uri := by
  have conventional := conventional_of_attribute assembled listed member owned named
  cases origin with
  | default => contradiction
  | ofElement elsewhere otherOwned found =>
    obtain rfl := Option.some.inj prefixed
    obtain bare | same := agree _ elsewhere tag listed entry member _ otherOwned owned
    · exact absurd (bare.symm.trans found) (by simp)
    · exact Option.some.inj (found.symm.trans (same.trans named))
  | ofAttribute elsewhere other otherOwned found otherNotXml =>
    obtain rfl := Option.some.inj prefixed
    have likewise := conventional_of_attribute assembled elsewhere other otherOwned found
    exact Naming.conventional_inj likewise otherNotXml conventional notXml
  | madeUp number =>
    obtain rfl := Option.some.inj prefixed
    exact absurd rfl (Naming.conventional_ne_madeUp conventional notXml number)

end

/-- An attribute that is written with a prefix that can stand before its name, unless it is in no
namespace. -/
def Attribute.Form (entry : Attribute) : Prop :=
  (entry.nsPrefix = none → entry.name.uri = none) ∧
    ∀ part, entry.nsPrefix = some part → IsNamePart part ∧ part ≠ "xmlns"

namespace Naming

variable {naming : Naming}

theorem exists_of_not_isFree {bound : String} (taken : naming.isFree bound = false) :
    some bound ∈ naming.declarations.map (·.nsPrefix) := by
  have declared {declaration : Declaration} (member : declaration ∈ naming.declarations)
      (same : declaration.nsPrefix = some bound) :
      some bound ∈ naming.declarations.map (·.nsPrefix) := List.mem_map.mpr ⟨declaration, member, same⟩
  simp only [isFree, Bool.and_eq_false_iff, Option.isNone_eq_false_iff, Option.isSome_iff_exists,
    Bool.not_eq_false'] at taken
  obtain ⟨uri, found⟩ | here := taken
  · exact declared (mem_of_lookup? found) rfl
  · obtain ⟨declaration, member, same⟩ := List.any_eq_true.mp here
    exact declared (here_subset member) (by simpa using same)

/-- One of the next prefixes is free, as there is one more of them than there are declarations. -/
theorem isFree_freshNumber (naming : Naming) : naming.isFree (madeUp naming.freshNumber) = true := by
  have next : ∃ number, naming.freshNumber = number ∧ naming.isFree (madeUp number) = true := by
    unfold freshNumber
    simp only
    cases found : ((List.range (naming.declarations.length + 1)).map
        (naming.generated + 1 + ·)).find? fun number => naming.isFree (madeUp number) with
    | some number =>
      have free := List.find?_some found
      exact ⟨number, rfl, free⟩
    | none =>
      rw [List.find?_map, Option.map_eq_none_iff, List.find?_eq_none] at found
      have distinct : ((List.range (naming.declarations.length + 1)).map fun number =>
          some (madeUp (naming.generated + 1 + number))).Nodup := by
        refine List.nodup_range.map fun first second same => ?_
        have sum := madeUp_inj (Option.some.inj same)
        omega
      have taken : ((List.range (naming.declarations.length + 1)).map fun number =>
          some (madeUp (naming.generated + 1 + number))) ⊆ naming.declarations.map (·.nsPrefix) := by
        intro bound member
        obtain ⟨number, inRange, rfl⟩ := List.mem_map.mp member
        exact exists_of_not_isFree (by simpa using found number inRange)
      have bounded := (List.subperm_of_subset distinct taken).length_le
      simp only [List.length_map, List.length_range] at bounded
      omega
  obtain ⟨number, same, free⟩ := next
  rwa [same]

/-- The naming within a tag, some names of which have been found: no prefix is declared twice in the
tag, and every declaration is made for a name. -/
structure Within (tags : List Tag) (outer : List (List Declaration)) (naming : Naming) : Prop where
  frames : naming.frames = naming.here :: outer
  prefixes : (naming.here.map (·.nsPrefix)).Nodup
  origin : ∀ declaration ∈ naming.declarations, declaration.Origin tags

namespace Within

variable {tags : List Tag} {outer : List (List Declaration)} {tag : Tag}
  (within : Within tags outer naming)
include within

theorem declare {nsPrefix : Option String} {uri : String}
    (fresh : naming.isDeclaredHere nsPrefix = false)
    (origin : Declaration.Origin tags ⟨nsPrefix, uri⟩) :
    Within tags outer (naming.declare nsPrefix uri) := by
  refine ⟨?_, ?_, ?_⟩
  · rw [declare_frames within.frames, declare_here within.frames]
  · rw [declare_here within.frames, List.map_append, List.nodup_append]
    refine ⟨within.prefixes, by simp, ?_⟩
    rintro _ member _ last rfl
    obtain ⟨declaration, inHere, same⟩ := List.mem_map.mp member
    have declared := List.any_eq_false.mp fresh declaration inHere
    exact declared (by simpa [same] using last)
  · rw [declare_declarations within.frames]
    exact List.forall_mem_cons.mpr ⟨origin, within.origin⟩

theorem lookup?_declared {nsPrefix : Option String} {uri : String} (nonempty : uri ≠ "") :
    (naming.declare nsPrefix uri).lookup? nsPrefix = some uri := by
  rw [lookup?_declare within.frames, if_pos rfl]
  simp [nonempty]

/-- A prefix that stands for nothing can be declared without a change to the names found before. -/
theorem keeps_declare {bound : String} (uri : String) (unbound : naming.lookup? (some bound) = none) :
    Keeps naming (naming.declare (some bound) uri) := by
  refine ⟨fun other found looked => ?_, ?_⟩
  · rw [lookup?_declare within.frames, if_neg]
    · exact looked
    · rintro ⟨⟩
      rw [unbound] at looked
      contradiction
  · rw [lookup?_declare within.frames, if_neg (by simp)]

/-- The name of an element in its new frame. -/
theorem elementName (listed : tag ∈ tags) (named : tag.name.uri ≠ some "")
    (unframed : naming.here = []) :
    ∃ after nsPrefix, naming.elementName tag = (after, qualified nsPrefix tag.name.localName) ∧
      Within tags outer after ∧ after.NamesElement nsPrefix tag.name.uri := by
  have undeclared (nsPrefix : Option String) : naming.isDeclaredHere nsPrefix = false := by
    simp [isDeclaredHere, unframed]
  unfold Naming.elementName
  cases uriEq : tag.name.uri with
  | none =>
    by_cases default : (naming.lookup? none).isSome = true
    · refine ⟨_, none, by simp [default, qualified], within.declare (undeclared none) (.default ""),
        .unbound ?_⟩
      rw [lookup?_declare within.frames, if_pos rfl]
      rfl
    · exact ⟨naming, none, by simp [default, qualified], within, .unbound (by simpa using default)⟩
  | some uri =>
    have nonempty : uri ≠ "" := by
      rintro rfl
      exact named uriEq
    cases own : tag.nsPrefix with
    | none =>
      by_cases default : naming.lookup? none = some uri
      · exact ⟨naming, none, by simp [default, qualified], within, .default default⟩
      · exact ⟨_, none, by simp [default, qualified, undeclared],
          within.declare (undeclared none) (.default uri),
          .default (within.lookup?_declared nonempty)⟩
    | some bound =>
      by_cases found : naming.lookup? (some bound) = some uri
      · exact ⟨naming, some bound, by simp [found, qualified], within, .bound found⟩
      · exact ⟨_, some bound, by simp [found, qualified, undeclared],
          within.declare (undeclared _) (.ofElement listed own uriEq),
          .bound (within.lookup?_declared nonempty)⟩

theorem declareFresh {uri : String} {entry : Attribute} (listed : tag ∈ tags)
    (member : entry ∈ tag.attributes) (named : entry.name.uri = some uri) (nonempty : uri ≠ "") :
    ∃ after bound, naming.declareFresh uri = (after, bound) ∧ Within tags outer after ∧
      Keeps naming after ∧ after.lookup? (some bound) = some uri := by
  have free := naming.isFree_freshNumber
  simp only [isFree, Bool.and_eq_true, Option.isNone_iff_eq_none, Bool.not_eq_true'] at free
  have raised : Within tags outer { naming with generated := naming.freshNumber } :=
    ⟨within.frames, within.prefixes, within.origin⟩
  have keeps := raised.keeps_declare uri free.1
  exact ⟨_, _, rfl, raised.declare free.2 (.madeUp _ listed member named),
    ⟨keeps.bound, keeps.default⟩, raised.lookup?_declared nonempty⟩

variable (assembled : ∀ tag ∈ tags, tag.Assembled)
include assembled

/-- The name of an attribute. Its own prefix may take the place of one that stands for another
namespace outside, but not if elements and attributes agree on their prefixes. -/
theorem attributeName {entry : Attribute} (listed : tag ∈ tags) (member : entry ∈ tag.attributes) :
    ∃ after nsPrefix, naming.attributeName entry = (after, qualified nsPrefix entry.name.localName) ∧
      Within tags outer after ∧ (PrefixesAgree tags → Keeps naming after) ∧
      after.NamesAttribute nsPrefix entry.name.uri := by
  have named := ((assembled tag listed).attributes entry member).2
  unfold Naming.attributeName
  cases uriEq : entry.name.uri with
  | none => exact ⟨naming, none, rfl, within, fun _ => .refl naming, .plain⟩
  | some uri =>
    have nonempty : uri ≠ "" := by
      rintro rfl
      exact named uriEq
    by_cases xml : uri = xmlUri
    · subst xml
      exact ⟨naming, some "xml", by simp [qualified], within, fun _ => .refl naming, .xml⟩
    simp only [if_neg xml]
    cases bound : entry.nsPrefix.filter fun own => naming.lookup? (some own) = some uri with
    | some own =>
      have looked := (Option.filter_eq_some_iff.mp bound).2
      exact ⟨naming, some own, rfl, within, fun _ => .refl naming, .bound xml (by simpa using looked)⟩
    | none =>
    cases found : naming.prefixFor? uri with
    | some other =>
      have looked := List.find?_some found
      exact ⟨naming, some other, rfl, within, fun _ => .refl naming,
        .bound xml (by simpa using looked)⟩
    | none =>
    cases free : entry.nsPrefix.filter fun own => !naming.isDeclaredHere (some own) with
    | none =>
      obtain ⟨after, fresh, declared, inside, keeps, looked⟩ :=
        within.declareFresh listed member uriEq nonempty
      exact ⟨after, some fresh, by simp [declared, qualified], inside, fun _ => keeps,
        .bound xml looked⟩
    | some own =>
      obtain ⟨owned, undeclared⟩ := Option.filter_eq_some_iff.mp free
      have inside := within.declare (by simpa using undeclared)
        (.ofAttribute listed member owned uriEq xml)
      refine ⟨_, some own, rfl, inside, fun agree => within.keeps_declare uri ?_,
        .bound xml (within.lookup?_declared nonempty)⟩
      -- Anything that the prefix stood for would be the namespace of the attribute.
      cases looked : naming.lookup? (some own) with
      | none => rfl
      | some other =>
        have declared := within.origin _ (mem_of_lookup? looked)
        obtain rfl : other = uri :=
          declared.agrees assembled agree listed member owned uriEq xml rfl
        rw [owned, Option.filter_eq_none_iff] at bound
        exact absurd looked (by simpa using bound own rfl)

variable (named : ∀ tag ∈ tags, tag.Named)
include named

/-- The prefixes that names are written with can stand before them. -/
theorem part_of_bound {bound uri : String} (found : naming.lookup? (some bound) = some uri) :
    IsNamePart bound ∧ bound ≠ "xmlns" := by
  obtain ⟨⟨part, -, notXmlns⟩, -⟩ :=
    (within.origin _ (mem_of_lookup? found)).bound assembled named rfl
  exact ⟨part, notXmlns⟩

theorem elementPart {nsPrefix uri : Option String} (names : naming.NamesElement nsPrefix uri) :
    ∀ part, nsPrefix = some part → IsNamePart part := by
  rintro part rfl
  cases names with
  | bound found => exact (within.part_of_bound assembled named found).1

theorem attributeForm {entry : Attribute}
    (names : naming.NamesAttribute entry.nsPrefix entry.name.uri) : entry.Form := by
  unfold Attribute.Form
  generalize entry.nsPrefix = nsPrefix at names
  generalize entry.name.uri = uri at names
  cases names with
  | plain => exact ⟨fun _ => rfl, nofun⟩
  | xml =>
    refine ⟨nofun, ?_⟩
    rintro _ ⟨⟩
    exact ⟨isNamePart_xml, by decide⟩
  | bound _ found =>
    refine ⟨nofun, ?_⟩
    rintro _ ⟨⟩
    exact within.part_of_bound assembled named found

theorem attributeNames {attributes : List Attribute} (listed : tag ∈ tags)
    (members : ∀ entry ∈ attributes, entry ∈ tag.attributes) :
    ∃ after, ∃ kept : List Attribute,
      naming.attributeNames attributes = (after, kept.map Attribute.written) ∧
      Within tags outer after ∧ kept.map (·.name) = attributes.map (·.name) ∧
      (∀ entry ∈ kept, entry.Form) ∧
      (PrefixesAgree tags → Keeps naming after ∧
        ∀ entry ∈ kept, after.NamesAttribute entry.nsPrefix entry.name.uri) := by
  induction attributes generalizing naming with
  | nil => exact ⟨naming, [], rfl, within, rfl, by simp, fun _ => ⟨.refl naming, by simp⟩⟩
  | cons entry rest ih =>
    obtain ⟨middle, nsPrefix, first, withinMiddle, keepsFirst, names⟩ :=
      within.attributeName assembled listed (members entry List.mem_cons_self)
    obtain ⟨after, kept, others, withinAfter, same, forms, keepsOthers⟩ :=
      ih withinMiddle fun other member => members other (List.mem_cons_of_mem _ member)
    have form : Attribute.Form ⟨entry.name, nsPrefix, entry.value⟩ :=
      withinMiddle.attributeForm assembled named names
    refine ⟨after, ⟨entry.name, nsPrefix, entry.value⟩ :: kept, ?_, withinAfter, by simp [same],
      List.forall_mem_cons.mpr ⟨form, forms⟩, fun agree => ?_⟩
    · simp only [Naming.attributeNames, first, others]
      rfl
    · obtain ⟨keeps, all⟩ := keepsOthers agree
      exact ⟨(keepsFirst agree).trans keeps, List.forall_mem_cons.mpr ⟨names.keep keeps, all⟩⟩

end Within

/-- A tag and what is written for it: its names with the prefixes and declarations chosen for them.
The prefixes stand for the namespaces of the names if the tags of the document agree on theirs. -/
structure Writes (tags : List Tag) (naming : Naming) (tag : Tag) (after : Naming)
    (written : Tag) : Prop where
  result : naming.tag tag = (after, written.writtenName, written.entries)
  frames : after.frames = written.declarations :: naming.frames
  prefixes : (written.declarations.map (·.nsPrefix)).Nodup
  origin : ∀ declaration ∈ after.declarations, declaration.Origin tags
  name : written.name = tag.name
  names : written.attributes.map (·.name) = tag.attributes.map (·.name)
  elementPart : ∀ part, written.nsPrefix = some part → IsNamePart part
  forms : ∀ entry ∈ written.attributes, entry.Form
  named : PrefixesAgree tags → after.NamesElement written.nsPrefix tag.name.uri ∧
    ∀ entry ∈ written.attributes, after.NamesAttribute entry.nsPrefix entry.name.uri

theorem exists_writes {tags : List Tag} {tag : Tag}
    (origin : ∀ declaration ∈ naming.declarations, declaration.Origin tags)
    (assembled : ∀ tag ∈ tags, tag.Assembled) (named : ∀ tag ∈ tags, tag.Named)
    (listed : tag ∈ tags) : ∃ after written, Writes tags naming tag after written := by
  have entered : Within tags naming.frames (naming.enter []) := by
    refine ⟨rfl, List.nodup_nil, ?_⟩
    simpa [Naming.enter, Naming.declarations] using origin
  obtain ⟨middle, nsPrefix, first, inside, names⟩ :=
    entered.elementName listed (assembled tag listed).name rfl
  obtain ⟨after, kept, others, within, same, forms, keeps⟩ :=
    inside.attributeNames assembled named listed fun _ member => member
  refine ⟨after, ⟨tag.name, nsPrefix, after.here, kept, none, none⟩, {
    result := ?_
    frames := within.frames
    prefixes := within.prefixes
    origin := within.origin
    name := rfl
    names := same
    elementPart := inside.elementPart assembled named names
    forms
    named := fun agree => ⟨names.keep (keeps agree).1, (keeps agree).2⟩ }⟩
  unfold Naming.tag
  simp only [(assembled tag listed).declarations, first, others]
  rfl

end Naming
end KeyholeMarkup.Xml

import KeyholeMarkup.Proofs.Xml.Settled
import KeyholeMarkup.Text.Letter
import KeyholeMarkup.Xml.Build

/-! Built documents. Makers decide on the prefixes of elements, namespaces on those of attributes,
and nothing is declared before the document is written. -/
namespace KeyholeMarkup.Xml
open KeyholeMarkup.Text

/-- Elements that are made by makers, without a prefix of their own choice, and added to. -/
inductive Element.Built : Element → Prop
  | made {maker : Maker} (localName : String) :
    maker.nsPrefix = none ∨ maker ∈ [Maker.kml, Maker.atom, Maker.gx] →
    Built (maker.element localName)
  | withText {element} (text : String) : Built element → Built (element.withText text)
  | withAttribute {element} (localName value : String) : Built element →
    Built (element.withAttribute localName value)
  | withAttributeNamed {element} (uri : Option String) (localName value : String) :
    Built element → Built (element.withAttributeNamed (Name.within uri localName) value)
  | withChild {element child} : Built element → Built child → Built (element.withChild child)
  | withComment {element} (text : String) : Built element → Built (element.withComment text)

inductive Document.Built : Document → Prop
  | ofRoot {root} : root.Built → Built (Document.ofRoot root)
  | withLeading {document} (text : String) : Built document → Built (document.withLeading text)
  | withTrailing {document} (text : String) : Built document → Built (document.withTrailing text)

/-- The characters that a name without a colon may begin with. -/
def nameStartRanges : List (Nat × Nat) := [
  (0x41, 0x5A), (0x5F, 0x5F), (0x61, 0x7A), (0xC0, 0xD6), (0xD8, 0xF6), (0xF8, 0x2FF),
  (0x370, 0x37D), (0x37F, 0x1FFF), (0x200C, 0x200D), (0x2070, 0x218F), (0x2C00, 0x2FEF),
  (0x3001, 0xD7FF), (0xF900, 0xFDCF), (0xFDF0, 0xFFFD), (0x10000, 0xEFFFF)]

def nameRanges : List (Nat × Nat) := nameStartRanges ++ [
  (0x2D, 0x2E), (0x30, 0x39), (0xB7, 0xB7), (0x300, 0x36F), (0x203F, 0x2040)]

/-- The rule `NCName` of namespaces in XML. -/
def IsNcName (text : String) : Prop :=
  ∃ first rest, text.toList = first :: rest ∧ inRanges nameStartRanges first ∧
    ∀ c ∈ rest, inRanges nameRanges c

def isNcName : List Char → Bool
  | [] => false
  | first :: rest => inRanges nameStartRanges first && rest.all (inRanges nameRanges)

theorem isNcName_iff {text : String} : isNcName text.toList = true ↔ IsNcName text := by
  unfold IsNcName
  cases text.toList with
  | nil => simp [isNcName]
  | cons first rest =>
    simp only [isNcName, Bool.and_eq_true, List.all_eq_true]
    constructor
    · rintro ⟨start, others⟩
      exact ⟨first, rest, rfl, start, others⟩
    · rintro ⟨_, _, ⟨⟩, start, others⟩
      exact ⟨start, others⟩

instance (text : String) : Decidable (IsNcName text) := decidable_of_iff _ isNcName_iff

/-- A condition on all tags of a content, each with what the element holds, and on all comments. -/
def Content.Every (tags : Tag → Content → Prop) (comments : Comment → Prop) : Content → Prop
  | .empty => True
  | .comment entry rest => comments entry ∧ rest.Every tags comments
  | .element tag inner rest =>
    tags tag inner ∧ inner.Every tags comments ∧ rest.Every tags comments

structure Attribute.Writable (entry : Attribute) : Prop where
  localName : IsNcName entry.name.localName
  own : entry.name.uri = none → entry.name.localName ≠ "xmlns"
  uri : ∀ uri, entry.name.uri = some uri → IsUriText uri ∧ uri ≠ xmlnsUri
  value : '\r' ∉ entry.value.toList ∧ '\n' ∉ entry.value.toList ∧ '\t' ∉ entry.value.toList

structure Tag.Writable (tag : Tag) (inner : Content) : Prop where
  localName : IsNcName tag.name.localName
  uri : ∀ uri, tag.name.uri = some uri → IsUriText uri ∧ uri ≠ xmlnsUri ∧ uri ≠ xmlUri
  attributes : ∀ entry ∈ tag.attributes, entry.Writable
  distinct : (tag.attributes.map (·.name)).Nodup
  text : tag.TextFits inner

/-- Names, namespaces, values, texts and comments that can be written at all. -/
structure Document.Writable (document : Document) : Prop where
  leading : ∀ entry ∈ document.leading, entry.Fits
  tag : document.root.tag.Writable document.root.content
  content : document.root.content.Every Tag.Writable Comment.Fits
  trailing : ∀ entry ∈ document.trailing, entry.Fits

def Name.conventional? (name : Name) : Option String := name.uri.bind conventionalPrefix?

/-- A tag as it is made: prefixes are conventional and nothing is declared. -/
structure Tag.Made (tag : Tag) : Prop where
  declarations : tag.declarations = []
  name : tag.name.uri ≠ some ""
  nsPrefix : ∀ own, tag.nsPrefix = some own → tag.name.conventional? = some own
  attributes : ∀ entry ∈ tag.attributes,
    entry.nsPrefix = entry.name.conventional? ∧ entry.name.uri ≠ some ""

theorem inRanges_append (first second : List (Nat × Nat)) (c : Char) :
    inRanges (first ++ second) c = (inRanges first c || inRanges second c) := by
  simp [inRanges]

theorem isTagChar_of_inRanges {c : Char} (named : inRanges nameRanges c) :
    isTagChar c ∧ c ≠ ':' := by
  have apart : [' ', '\t', '\n', '\r', '&', '<', '>', '\'', '"', '/', '!', '?', '=', ':'].all
      (fun d => !inRanges nameRanges d) := by decide
  have other : ∀ d ∈ [' ', '\t', '\n', '\r', '&', '<', '>', '\'', '"', '/', '!', '?', '=', ':'],
      c ≠ d := by
    rintro d member rfl
    have unnamed := List.all_eq_true.mp apart c member
    rw [named] at unnamed
    contradiction
  simp only [List.mem_cons, List.not_mem_nil, or_false, forall_eq_or_imp, forall_eq] at other
  simp [isTagChar, isSpace, isSpecial, other]

theorem IsNcName.isNamePart {text : String} (named : IsNcName text) : IsNamePart text := by
  obtain ⟨first, rest, split, start, others⟩ := named
  have all : ∀ c ∈ text.toList, isTagChar c ∧ c ≠ ':' := by
    intro c member
    rw [split] at member
    obtain rfl | later := List.mem_cons.mp member
    · refine isTagChar_of_inRanges ?_
      rw [nameRanges, inRanges_append, start, Bool.true_or]
    · exact isTagChar_of_inRanges (others c later)
  exact ⟨⟨by simp [split], fun c member => (all c member).1⟩, fun member => (all _ member).2 rfl⟩

theorem Content.every_append {tags : Tag → Content → Prop} {comments : Comment → Prop}
    {first second : Content} (left : first.Every tags comments)
    (right : second.Every tags comments) : (first.append second).Every tags comments := by
  induction first with
  | empty => exact right
  | comment entry rest ih => exact ⟨left.1, ih left.2⟩
  | element tag inner rest _ ih => exact ⟨left.1, left.2.1, ih left.2.2⟩

/-- All tags of a built element are as they are made. -/
theorem Element.Built.made_tags {element : Element} (built : element.Built) :
    element.tag.Made ∧ element.content.Every (fun tag _ => tag.Made) fun _ => True := by
  have atom : ((some atomUri).filter (· ≠ "")).bind conventionalPrefix? = some "atom" := by decide
  have gx : ((some gxUri).filter (· ≠ "")).bind conventionalPrefix? = some "gx" := by decide
  induction built with
  | @made maker localName chosen =>
    refine ⟨⟨rfl, Name.within_uri_ne_empty _ _, fun own prefixed => ?_, by simp [Maker.element]⟩,
      trivial⟩
    obtain bare | preset := chosen
    · exact absurd (bare.symm.trans prefixed) (by simp)
    · simp only [List.mem_cons, List.not_mem_nil, or_false] at preset
      obtain rfl | rfl | rfl := preset
      · exact absurd prefixed (by simp [Maker.element, Maker.kml])
      · exact atom.trans prefixed
      · exact gx.trans prefixed
  | withText text _ ih => exact ⟨⟨ih.1.declarations, ih.1.name, ih.1.nsPrefix, ih.1.attributes⟩, ih.2⟩
  | withAttribute localName value _ ih =>
    refine ⟨⟨ih.1.declarations, ih.1.name, ih.1.nsPrefix, fun entry member => ?_⟩, ih.2⟩
    obtain given | added := List.mem_append.mp member
    · exact ih.1.attributes entry given
    · rw [List.mem_singleton.mp added]
      exact ⟨rfl, by simp [Name.plain]⟩
  | withAttributeNamed uri localName value _ ih =>
    refine ⟨⟨ih.1.declarations, ih.1.name, ih.1.nsPrefix, fun entry member => ?_⟩, ih.2⟩
    obtain given | added := List.mem_append.mp member
    · exact ih.1.attributes entry given
    · rw [List.mem_singleton.mp added]
      exact ⟨rfl, Name.within_uri_ne_empty uri localName⟩
  | withChild _ _ ih ihChild =>
    exact ⟨⟨ih.1.declarations, ih.1.name, ih.1.nsPrefix, ih.1.attributes⟩,
      Content.every_append ih.2 ⟨ihChild.1, ihChild.2, trivial⟩⟩
  | withComment text _ ih =>
    exact ⟨⟨ih.1.declarations, ih.1.name, ih.1.nsPrefix, ih.1.attributes⟩,
      Content.every_append ih.2 ⟨trivial, trivial⟩⟩

theorem Document.Built.root_built {document : Document} (built : document.Built) :
    document.root.Built := by
  induction built with
  | ofRoot root => exact root
  | withLeading text _ ih => exact ih
  | withTrailing text _ ih => exact ih

end KeyholeMarkup.Xml

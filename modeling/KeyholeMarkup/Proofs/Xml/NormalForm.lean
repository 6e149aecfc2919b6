import KeyholeMarkup.Proofs.Xml.Tree
import KeyholeMarkup.Proofs.Xml.WellNamed

/-! The form of documents that have been read. Their texts, namespaces, declarations and comments are
such as can be written again, and their attributes differ in their names as they are written. -/
namespace KeyholeMarkup.Xml
open KeyholeMarkup.Text

/-- Every node of a content is read in the scope around it. -/
theorem Content.ReadFrom.of_mem {tags : List Char → Prop} {scope : Scope} {content : Content}
    (readFrom : content.ReadFrom tags scope) :
    ∀ node ∈ content.allNodes, ∃ around, node.ReadFrom tags around := by
  induction readFrom with
  | empty => simp [allNodes]
  | @comment scope _ _ fits _ ih =>
    exact List.forall_mem_cons.mpr ⟨⟨scope, .comment fits .empty⟩, ih⟩
  | element given entered opened kept inner _ ihInner ihRest =>
    rw [allNodes, List.cons_append]
    apply List.forall_mem_cons.mpr ⟨?_, List.forall_mem_append.mpr ⟨ihInner, ihRest⟩⟩
    exact ⟨_, .element given entered opened kept inner .empty⟩

theorem Document.ReadFrom.content {tags : List Char → Prop} {document : Document}
    (readFrom : document.ReadFrom tags) : document.content.ReadFrom tags Scope.predefined := by
  apply readFrom_ofNodes
  apply List.forall_mem_append.mpr ⟨?_, List.forall_mem_cons.mpr ⟨readFrom.root, ?_⟩⟩
  · exact List.forall_mem_map.mpr fun entry member => .comment (readFrom.leading entry member) .empty
  · exact List.forall_mem_map.mpr fun entry member => .comment (readFrom.trailing entry member) .empty

/-- The form in which elements are read. Their text is not empty, and not blank before children; their
namespaces have names; no declaration is among their attributes, and no prefix is declared twice. -/
structure Element.IsNormal (element : Element) : Prop where
  text : element.tag.text ≠ some ""
  visible : element.content.nodes ≠ [] → ∀ text, element.tag.text = some text →
    ∃ c ∈ text.toList, isBlank c = false
  uri : element.tag.name.uri ≠ some ""
  uris : ∀ entry ∈ element.tag.attributes, entry.name.uri ≠ some ""
  attributes : ∀ entry ∈ element.tag.attributes,
    entry.name ≠ .plain "xmlns" ∧ entry.nsPrefix ≠ some "xmlns"
  declarations : (element.tag.declarations.map (·.nsPrefix)).Nodup

def Node.IsNormal : Node → Prop
  | .comment entry => entry.Fits
  | .element child => child.IsNormal

theorem isNormal_of_openedBy {scope : Scope} {content : List Char} {element : Element}
    (opened : element.tag.OpenedBy scope content) (kept : element.tag.TextKept element.content) :
    element.IsNormal where
  text := by
    intro empty
    exact (kept "" empty).1 rfl
  visible := by
    intro filled text given
    have shown := (kept text given).2 fun empty => filled (by rw [empty]; rfl)
    simpa [allBlank] using shown
  uri := opened.uri_ne
  uris := by
    intro entry member
    obtain ⟨written, read⟩ := opened.readOf entry member
    exact read.uri
  attributes := by
    intro entry member
    obtain ⟨written, read⟩ := opened.readOf entry member
    exact ⟨read.name_ne, read.nsPrefix_ne⟩
  declarations := opened.nodup_declarations

section
variable {file : Nat} {text : String} {document : Document}

theorem Node.exists_readFrom_of_parse (parsed : parse file text = .ok document) :
    ∀ node ∈ document.allNodes, ∃ scope, node.ReadFrom (fun _ => True) scope := by
  have readFrom : document.ReadFrom fun _ => True := readFrom_of_parse parsed fun _ _ _ _ => trivial
  exact readFrom.content.of_mem

/-- Every element and every comment of a document that has been read is in normal form. -/
theorem isNormal_of_parse (parsed : parse file text = .ok document) :
    ∀ node ∈ document.allNodes, node.IsNormal := by
  intro node member
  obtain ⟨scope, readFrom⟩ := Node.exists_readFrom_of_parse parsed node member
  cases node with
  | comment entry =>
    cases readFrom with
    | comment fits _ => exact fits
  | element child =>
    cases readFrom with
    | element _ _ opened kept _ _ => exact isNormal_of_openedBy opened kept

end

theorem isNormal_of_parse_blank :
    ∃ document, parse 0 "<!--\r--><a xmlns='' xmlns:p='u'> <b p:xmlns='&#13;'> </b></a>" =
        .ok document ∧ ∀ node ∈ document.allNodes, node.IsNormal := by
  have parsed : parse 0 "<!--\r--><a xmlns='' xmlns:p='u'> <b p:xmlns='&#13;'> </b></a>" =
      .ok ⟨[⟨"\n", some ⟨0, 0, 8⟩⟩],
        ⟨⟨⟨none, "a"⟩, none, [⟨none, ""⟩, ⟨some "p", "u"⟩], [], none, some ⟨0, 8, 61⟩⟩,
          .element ⟨⟨none, "b"⟩, none, [], [⟨⟨some "u", "xmlns"⟩, some "p", "\r"⟩],
            some " ", some ⟨0, 33, 57⟩⟩ .empty .empty⟩, []⟩ := by
    rfl
  exact ⟨_, parsed, isNormal_of_parse parsed⟩

/-- Attributes that are written apart may be read with one name, but only through two prefixes. -/
theorem Tag.OpenedBy.pairwise_attributes {scope : Scope} {content : List Char} {tag : Tag}
    (opened : tag.OpenedBy scope content) :
    tag.attributes.Pairwise fun first second => first.name = second.name →
      ∃ own other, first.nsPrefix = some own ∧ second.nsPrefix = some other ∧ own ≠ other := by
  have apart := List.pairwise_map.mp opened.nodup_written
  apply apart.imp_of_mem
  intro first second firstMember secondMember unlike same
  obtain ⟨_, firstRead⟩ := opened.readOf first firstMember
  obtain ⟨_, secondRead⟩ := opened.readOf second secondMember
  have bare : first.nsPrefix = none ↔ second.nsPrefix = none := by
    rw [firstRead.bare, secondRead.bare, same]
  have prefixes : first.nsPrefix ≠ second.nsPrefix := by
    intro alike
    apply unlike
    simp only [Attribute.written, alike, same]
  cases own : first.nsPrefix with
  | none => exact absurd (own.trans (bare.mp own).symm) prefixes
  | some own' =>
    cases other : second.nsPrefix with
    | none => simp [own, other] at bare
    | some other' =>
      refine ⟨own', other', rfl, rfl, ?_⟩
      intro alike
      rw [own, other, alike] at prefixes
      contradiction

section
variable {file : Nat} {text : String} {document : Document}

/-- The attributes of an element differ in their names as they are written. They form a mapping from
names unless two prefixes stand for the same namespace and both are used with one local name. -/
theorem nodup_attributes_of_parse (parsed : parse file text = .ok document) :
    ∀ element, .element element ∈ document.allNodes →
      (element.tag.attributes.map (·.written.1)).Nodup ∧
      (element.tag.attributes.Pairwise fun first second => first.name = second.name →
        ∃ own other, first.nsPrefix = some own ∧ second.nsPrefix = some other ∧ own ≠ other) ∧
      ((element.tag.attributes.map (·.name)).Nodup ↔ ∀ first ∈ element.tag.attributes,
        ∀ second ∈ element.tag.attributes, first.name = second.name →
          first.nsPrefix = second.nsPrefix) := by
  intro element member
  obtain ⟨scope, readFrom⟩ := Node.exists_readFrom_of_parse parsed _ member
  cases readFrom with
  | element _ _ opened _ _ _ =>
  have apart := opened.pairwise_attributes
  refine ⟨opened.nodup_written, apart, ?_⟩
  constructor
  · intro distinct first firstMember second secondMember same
    rw [List.inj_on_of_nodup_map distinct firstMember secondMember same]
  · intro mapping
    apply List.pairwise_map.mpr
    apply apart.imp_of_mem
    intro first second firstMember secondMember prefixes same
    obtain ⟨own, other, firstPrefix, secondPrefix, differ⟩ := prefixes same
    have alike := mapping first firstMember second secondMember same
    rw [firstPrefix, secondPrefix] at alike
    exact differ (Option.some.inj alike)

end

theorem nodup_attributes_of_parse_twoPrefixes :
    ∃ document, parse 0 "<a xmlns:p='u' xmlns:q='u' p:x='1' q:x='2'/>" = .ok document ∧
      (document.root.tag.attributes.map (·.written.1)).Nodup ∧
      ¬ (document.root.tag.attributes.map (·.name)).Nodup := by
  have parsed : parse 0 "<a xmlns:p='u' xmlns:q='u' p:x='1' q:x='2'/>" =
      .ok ⟨[], ⟨⟨⟨none, "a"⟩, none, [⟨some "p", "u"⟩, ⟨some "q", "u"⟩],
        [⟨⟨some "u", "x"⟩, some "p", "1"⟩, ⟨⟨some "u", "x"⟩, some "q", "2"⟩], none,
        some ⟨0, 0, 44⟩⟩, .empty⟩, []⟩ := by
    rfl
  obtain ⟨written, -⟩ := nodup_attributes_of_parse parsed _ List.mem_cons_self
  exact ⟨_, parsed, written, by decide⟩

end KeyholeMarkup.Xml

import KeyholeMarkup.Proofs.Xml.Assembled
import KeyholeMarkup.Proofs.Xml.InScope
import KeyholeMarkup.Proofs.Xml.SettledMarkup
import KeyholeMarkup.Proofs.Xml.Stream

/-! What start tags say. A written name means what the declarations on its tag and on the tags around
it make of its prefix. -/
namespace KeyholeMarkup.Xml

/-- The declaration that is written, with the references in its value expanded. -/
def WrittenAttribute.declares? (entry : WrittenAttribute) : Option Declaration := do
  let bound ← declaredPrefix? entry.name
  let uri ← (expandReferences entry.value).toOption
  return ⟨bound.map String.ofList, String.ofList uri⟩

def declarationsIn (content : List Char) : List Declaration :=
  (tagAttributes false content).attributes.filterMap WrittenAttribute.declares?

/-- The text of a start tag and the declarations in scope, its own ones first. -/
structure StartTag where
  content : List Char
  around : List (List Declaration)

/-- The start tags among some tokens, within open tags that have these declarations. -/
def startTags (outer : List (List Declaration)) : List Token → List StartTag
  | [] => []
  | .opening content :: rest =>
    ⟨content, declarationsIn content :: outer⟩ :: startTags (declarationsIn content :: outer) rest
  | .selfClosing content :: rest =>
    ⟨content, declarationsIn content :: outer⟩ :: startTags outer rest
  | .closing _ :: rest => startTags (outer.drop 1) rest
  | _ :: rest => startTags outer rest

/-- The start tags that are written for a document. -/
def Document.startTags (document : Document) (options : WriteOptions) : List StartTag :=
  Xml.startTags [] ((Markup.ofDocument options.cdata document).map Markup.token)

/-- The name that is meant by a written one; without a prefix it is in the namespace given. A prefix
must stand for a namespace. -/
def nameWithin? (around : List (List Declaration)) (unprefixed : Option String)
    (written : List Char) : Option Name :=
  match splitName written with
  | (none, localName) => some ⟨unprefixed, String.ofList localName⟩
  | (some bound, localName) => (standsFor? around (some (String.ofList bound))).map fun uri =>
    ⟨some uri, String.ofList localName⟩

namespace StartTag

def elementName? (start : StartTag) : Option Name :=
  nameWithin? start.around (standsFor? start.around none) (tagName start.content)

/-- The names of the attributes that are no declarations. -/
def attributeNames (start : StartTag) : List (Option Name) :=
  ((tagAttributes false start.content).attributes.filter (!·.isDeclaration)).map fun entry =>
    nameWithin? start.around none entry.name

/-- A start tag that can be read and has the names of a tag. -/
structure Means (start : StartTag) (tag : Tag) : Prop where
  complete : (tagAttributes false start.content).fault = none
  name : start.elementName? = some tag.name
  attributes : start.attributeNames = tag.attributes.map (some ·.name)

/-- A start tag as it is written for one of some tags: it declares no prefix twice, and it means the
names of its tag if the tags agree on their prefixes. -/
structure WrittenFor (tags : List Tag) (start : StartTag) (tag : Tag) : Prop where
  distinct : ((declarationsIn start.content).map (·.nsPrefix)).Nodup
  means : PrefixesAgree tags → start.Means tag

end StartTag

theorem declares?_written (declaration : Declaration) (position : Nat) :
    WrittenAttribute.declares? ⟨declaration.written.1.toList,
      escape declaration.written.2.toList, position⟩ = some declaration := by
  have uri : declaration.written.2 = declaration.uri := by
    unfold Declaration.written
    split <;> rfl
  unfold WrittenAttribute.declares?
  rw [declaredPrefix?_written, uri, expandReferences_escape]
  simp [Except.toOption]

section
variable {content : List Char} {entries : List (String × String)}
  (reads : (tagAttributes false content).attributes.map (fun entry => (entry.name, entry.value)) =
    entries.map AttributeList.asWritten)
include reads

theorem declarationsIn_eq : declarationsIn content = entries.filterMap fun entry =>
    WrittenAttribute.declares? ⟨entry.1.toList, escape entry.2.toList, 0⟩ := by
  have pairs : declarationsIn content =
      ((tagAttributes false content).attributes.map fun entry => (entry.name, entry.value)).filterMap
        fun pair => WrittenAttribute.declares? ⟨pair.1, pair.2, 0⟩ := by
    rw [List.filterMap_map]
    rfl
  rw [pairs, reads, List.filterMap_map]
  rfl

theorem names_eq : ((tagAttributes false content).attributes.filter (!·.isDeclaration)).map (·.name) =
    (entries.filter fun entry => (declaredPrefix? entry.1.toList).isNone).map (·.1.toList) := by
  have pairs : ((tagAttributes false content).attributes.filter (!·.isDeclaration)).map (·.name) =
      (((tagAttributes false content).attributes.map fun entry => (entry.name, entry.value)).filter
        fun pair => (declaredPrefix? pair.1).isNone).map Prod.fst := by
    rw [List.filter_map, List.map_map]
    congr 1
    refine List.filter_congr fun entry _ => ?_
    simp [WrittenAttribute.isDeclaration]
  rw [pairs, reads, List.filter_map, List.map_map]
  rfl

end

namespace Naming.Writes

variable {tags : List Tag} {naming after : Naming} {tag written : Tag}
  (writes : Writes tags naming tag after written) (assembled : ∀ tag ∈ tags, tag.Assembled)
  (named : ∀ tag ∈ tags, tag.Named) (listed : tag ∈ tags)

include writes

theorem here_subset {declaration : Declaration} (member : declaration ∈ written.declarations) :
    declaration ∈ after.declarations := by
  rw [declarations_of_frames writes.frames]
  exact List.mem_append_left _ (List.mem_reverse.mpr member)

include named listed

theorem localName : IsNamePart written.name.localName := by
  rw [writes.name]
  exact (named tag listed).localName.isNamePart

theorem attribute_read {entry : Attribute} (member : entry ∈ written.attributes) :
    IsNamePart entry.name.localName ∧ declaredPrefix? entry.written.1.toList = none := by
  obtain ⟨other, given, same⟩ : ∃ other ∈ tag.attributes, other.name = entry.name := by
    have kept := List.mem_map_of_mem (f := (·.name)) member
    rw [writes.names] at kept
    exact List.mem_map.mp kept
  obtain ⟨proper, own⟩ := (named tag listed).attributes other given
  rw [same] at proper own
  obtain ⟨plain, parts⟩ := writes.forms entry member
  exact ⟨proper.isNamePart,
    declaredPrefix?_qualified parts proper.isNamePart fun bare => own (plain bare)⟩

include assembled

/-- What has been written in a tag is found in it again. -/
theorem reads : tagName (Markup.tagContent written.writtenName written.entries) =
      written.writtenName.toList ∧
    (tagAttributes false (Markup.tagContent written.writtenName written.entries)).attributes.map
      (fun entry => (entry.name, entry.value)) = written.entries.map AttributeList.asWritten ∧
    (tagAttributes false (Markup.tagContent written.writtenName written.entries)).fault = none := by
  have element : IsTagName written.writtenName.toList :=
    isTagName_qualified writes.elementPart (writes.localName named listed)
  refine ⟨tagName_tagContent element, tagAttributes_tagContent false element ?_ nofun⟩
  intro entry member
  obtain declared | given := List.mem_append.mp member
  · obtain ⟨declaration, here, rfl⟩ := List.mem_map.mp declared
    exact declaration.isTagName_written fun part same =>
      ((writes.origin _ (writes.here_subset here)).bound assembled named same).1.1
  · obtain ⟨own, kept, rfl⟩ := List.mem_map.mp given
    exact isTagName_qualified (fun part same => ((writes.forms own kept).2 part same).1)
      (writes.attribute_read named listed kept).1

theorem declarationsIn_content :
    declarationsIn (Markup.tagContent written.writtenName written.entries) =
    written.declarations := by
  rw [declarationsIn_eq (writes.reads assembled named listed).2.1, Tag.entries,
    List.filterMap_append, List.filterMap_map, List.filterMap_map]
  have none : written.attributes.filterMap ((fun entry : String × String =>
      WrittenAttribute.declares? ⟨entry.1.toList, escape entry.2.toList, 0⟩) ∘
        Attribute.written) = [] := by
    refine List.filterMap_eq_nil_iff.mpr fun entry member => ?_
    simp [WrittenAttribute.declares?, (writes.attribute_read named listed member).2]
  rw [none, List.append_nil]
  refine Eq.trans (List.filterMap_congr fun declaration _ => ?_) List.filterMap_some
  exact declares?_written declaration 0

theorem names_content : ((tagAttributes false (Markup.tagContent written.writtenName
      written.entries)).attributes.filter (!·.isDeclaration)).map (·.name) =
    written.attributes.map (·.written.1.toList) := by
  rw [names_eq (writes.reads assembled named listed).2.1, Tag.entries, List.filter_append]
  have declared : (written.declarations.map Declaration.written).filter
      (fun entry => (declaredPrefix? entry.1.toList).isNone) = [] := by
    simp [declaredPrefix?_written]
  have kept : (written.attributes.map Attribute.written).filter
      (fun entry => (declaredPrefix? entry.1.toList).isNone) =
        written.attributes.map Attribute.written := by
    refine List.filter_eq_self.mpr fun entry member => ?_
    obtain ⟨own, inTag, rfl⟩ := List.mem_map.mp member
    simp [(writes.attribute_read named listed inTag).2]
  rw [declared, kept, List.nil_append, List.map_map]
  rfl

end Naming.Writes

namespace Naming

variable {naming : Naming} {tags : List Tag}

theorem standsFor?_of_lookup? {nsPrefix : Option String} {uri : String}
    (found : naming.lookup? nsPrefix = some uri) : standsFor? naming.frames nsPrefix = some uri := by
  obtain ⟨declaration, nearest, rfl, kept⟩ := lookup?_eq_some found
  have nearest : nearest? naming.frames nsPrefix = some declaration := nearest
  rw [standsFor?, nearest]
  exact if_neg kept

theorem standsFor?_of_unbound (unbound : naming.lookup? none = none) :
    standsFor? naming.frames none = none := by
  unfold standsFor?
  cases nearest : nearest? naming.frames none with
  | none => rfl
  | some declaration =>
    have located : naming.declarations.find? (·.nsPrefix == none) = some declaration := nearest
    simp only [lookup?, located, Option.map_some, Option.filter_eq_none_iff, Option.some.injEq,
      forall_eq'] at unbound
    exact if_pos (by simpa using unbound)

theorem standsFor?_xml (undeclared : naming.Undeclared "xml") :
    standsFor? naming.frames (some "xml") = some xmlUri := by
  have absent : nearest? naming.frames (some "xml") = none :=
    List.find?_eq_none.mpr fun declaration member => by simpa using undeclared declaration member
  rw [standsFor?, absent]
  rfl

theorem nameWithin?_qualified {around : List (List Declaration)} {unprefixed nsPrefix : Option String}
    {localName : String} (bound : ∀ part, nsPrefix = some part → IsNamePart part)
    (named : IsNamePart localName) :
    nameWithin? around unprefixed (qualified nsPrefix localName).toList =
      nsPrefix.elim (some ⟨unprefixed, localName⟩) fun part =>
        (standsFor? around (some part)).map fun uri => ⟨some uri, localName⟩ := by
  unfold nameWithin?
  rw [splitName_qualified bound named]
  cases nsPrefix <;> simp

variable {nsPrefix uri : Option String} {localName : String}

theorem NamesElement.nameWithin? (names : naming.NamesElement nsPrefix uri)
    (bound : ∀ part, nsPrefix = some part → IsNamePart part) (named : IsNamePart localName) :
    nameWithin? naming.frames (standsFor? naming.frames none)
      (qualified nsPrefix localName).toList = some ⟨uri, localName⟩ := by
  rw [nameWithin?_qualified bound named]
  cases names with
  | unbound found => simp [standsFor?_of_unbound found]
  | default found => simp [standsFor?_of_lookup? found]
  | bound found => simp [standsFor?_of_lookup? found]

theorem NamesAttribute.nameWithin? (names : naming.NamesAttribute nsPrefix uri)
    (undeclared : naming.Undeclared "xml")
    (bound : ∀ part, nsPrefix = some part → IsNamePart part) (named : IsNamePart localName) :
    nameWithin? naming.frames none (qualified nsPrefix localName).toList =
      some ⟨uri, localName⟩ := by
  rw [nameWithin?_qualified bound named]
  cases names with
  | plain => rfl
  | xml => simp [standsFor?_xml undeclared]
  | bound _ found => simp [standsFor?_of_lookup? found]

end Naming

namespace Naming.Writes

variable {tags : List Tag} {naming after : Naming} {tag written : Tag}
  (writes : Writes tags naming tag after written) (assembled : ∀ tag ∈ tags, tag.Assembled)
  (named : ∀ tag ∈ tags, tag.Named) (listed : tag ∈ tags) (agree : PrefixesAgree tags)
include writes assembled named listed agree

theorem means : StartTag.Means
    ⟨Markup.tagContent written.writtenName written.entries, after.frames⟩ tag := by
  obtain ⟨name, -, complete⟩ := writes.reads assembled named listed
  obtain ⟨names, each⟩ := writes.named agree
  have undeclared : after.Undeclared "xml" := fun declaration member same =>
    ((writes.origin declaration member).bound assembled named same).1.2.1 rfl
  refine ⟨complete, ?_, ?_⟩
  · rw [StartTag.elementName?, name, Tag.writtenName]
    exact (names.nameWithin? writes.elementPart (writes.localName named listed)).trans
      (by rw [writes.name])
  · have found := congrArg (List.map (nameWithin? after.frames none))
      (writes.names_content assembled named listed)
    have listing := congrArg (List.map some) writes.names
    simp only [List.map_map, Function.comp_def] at found listing
    rw [← listing]
    refine found.trans (List.map_congr_left fun entry member => ?_)
    exact (each entry member).nameWithin? undeclared
      (fun part same => ((writes.forms entry member).2 part same).1)
      (writes.attribute_read named listed member).1

end Naming.Writes

section
variable {tags : List Tag} {naming after : Naming} {tag written : Tag} {cdata : List Name}

theorem Naming.Writes.writtenFor (writes : Naming.Writes tags naming tag after written)
    (assembled : ∀ tag ∈ tags, tag.Assembled) (named : ∀ tag ∈ tags, tag.Named)
    (listed : tag ∈ tags) : StartTag.WrittenFor tags
      ⟨Markup.tagContent written.writtenName written.entries, after.frames⟩ tag := by
  refine ⟨?_, writes.means assembled named listed⟩
  rw [writes.declarationsIn_content assembled named listed]
  exact writes.prefixes

theorem startTags_skip {markups : List Markup} (skipped : ∀ markup ∈ markups, ∀ outer rest,
    startTags outer (markup.token :: rest) = startTags outer rest)
    (outer : List (List Declaration)) (rest : List Token) :
    startTags outer (markups.map Markup.token ++ rest) = startTags outer rest := by
  induction markups with
  | nil => rfl
  | cons markup others ih =>
    rw [List.map_cons, List.cons_append, skipped markup List.mem_cons_self]
    exact ih fun other member => skipped other (List.mem_cons_of_mem _ member)

/-- Around the start tags in a content its element puts its own one, and closes it again. -/
theorem startTags_markup {name : String} {attributes : List (String × String)} {inner : Content}
    {content : List Markup} {outer : List (List Declaration)} {starts : List StartTag}
    (childless : inner.isEmpty = true → content = [])
    (balanced : ∀ rest, startTags (declarationsIn (Markup.tagContent name attributes) :: outer)
      (content.map Markup.token ++ rest) =
        starts ++ startTags (declarationsIn (Markup.tagContent name attributes) :: outer) rest)
    (rest : List Token) :
    startTags outer ((tag.markup cdata name attributes inner content).map Markup.token ++ rest) =
      ⟨Markup.tagContent name attributes,
        declarationsIn (Markup.tagContent name attributes) :: outer⟩ ::
          starts ++ startTags outer rest := by
  unfold Tag.markup
  split
  · rename_i empty
    obtain rfl := childless (Bool.and_eq_true_iff.mp empty).1
    obtain rfl : starts = [] := by simpa [startTags] using (balanced []).symm
    rfl
  · have texts : ∀ markup ∈ tag.texts cdata, ∀ outer rest,
        startTags outer (markup.token :: rest) = startTags outer rest := by
      intro markup member outer rest
      obtain ⟨text, -, rfl | ⟨part, -, rfl⟩⟩ := Tag.mem_texts member <;> rfl
    simp only [List.map_append, List.map_cons, List.append_assoc, List.cons_append, Markup.token,
      startTags, List.map_nil, startTags_skip texts, balanced]
    rfl

/-- The start tags of a content are written for its tags, one after the other. -/
theorem startTags_ofContent (assembled : ∀ tag ∈ tags, tag.Assembled)
    (named : ∀ tag ∈ tags, tag.Named) {content : Content}
    (origin : ∀ declaration ∈ naming.declarations, declaration.Origin tags)
    (listed : ∀ tag ∈ content.tags, tag ∈ tags) :
    (Markup.ofContent cdata naming content).1.frames = naming.frames ∧
      ∃ starts, (∀ rest, startTags naming.frames
        ((Markup.ofContent cdata naming content).2.map Markup.token ++ rest) =
          starts ++ startTags naming.frames rest) ∧
        List.Forall₂ (StartTag.WrittenFor tags) starts content.tags := by
  induction content generalizing naming with
  | empty => exact ⟨rfl, [], fun _ => rfl, .nil⟩
  | comment entry rest ih => exact ih origin listed
  | element tag inner rest ihInner ihRest =>
    simp only [Content.tags, List.cons_append, List.forall_mem_cons, List.forall_mem_append]
      at listed
    obtain ⟨own, inside, later⟩ := listed
    obtain ⟨after, written, writes⟩ := Naming.exists_writes origin assembled named own
    obtain ⟨framesInner, startsInner, balancedInner, innerWritten⟩ := ihInner writes.origin inside
    have left : (Markup.ofContent cdata after inner).1.leave.frames = naming.frames :=
      Naming.leave_frames (framesInner.trans writes.frames)
    obtain ⟨framesRest, startsRest, balancedRest, restWritten⟩ :=
      ihRest (by rwa [Naming.declarations_congr left]) later
    rw [ofContent_element writes.result]
    have around : after.frames = declarationsIn
        (Markup.tagContent written.writtenName written.entries) :: naming.frames := by
      rw [writes.declarationsIn_content assembled named own, writes.frames]
    rw [left] at balancedRest
    rw [around] at balancedInner
    refine ⟨framesRest.trans left, _ :: startsInner ++ startsRest, fun others => ?_,
      .cons (writes.writtenFor assembled named own) (List.rel_append innerWritten restWritten)⟩
    have childless : inner.isEmpty = true → (Markup.ofContent cdata after inner).2 = [] := by
      cases inner <;> simp [Content.isEmpty, Markup.ofContent]
    simp only [List.map_append, List.append_assoc]
    rw [startTags_markup childless balancedInner, balancedRest, around]

end

section
variable {markup : Markup} {markups : List Markup}

theorem render_suffix_place (size : Nat) (layout : Layout) (markup : Markup) :
    markup.render <:+ (layout.place size markup).2 := by
  cases markup with
  | text written => exact List.suffix_rfl
  | cdata written => exact List.suffix_rfl
  | _ => exact List.suffix_append _ _

theorem render_infix_placeAll (size : Nat) (layout : Layout) (member : markup ∈ markups) :
    markup.render <:+: Layout.placeAll size layout markups := by
  induction markups generalizing layout with
  | nil => contradiction
  | cons first rest ih =>
    obtain rfl | later := List.mem_cons.mp member
    · exact (render_suffix_place size layout markup).isInfix.trans (List.prefix_append _ _).isInfix
    · exact (ih _ later).trans (List.suffix_append _ _).isInfix

/-- Every markup stands in what is written. -/
theorem render_infix_writeMarkup (options : WriteOptions) (member : markup ∈ markups) :
    markup.render <:+: writeMarkup options markups := by
  unfold writeMarkup
  cases options.indent with
  | some size =>
    exact (render_infix_placeAll size _ (List.mem_append_right _ member)).trans
      (List.prefix_append _ _).isInfix
  | none =>
    obtain ⟨before, after, rfl⟩ := List.append_of_mem member
    simp only [List.flatMap_append, List.flatMap_cons, ← List.append_assoc]
    exact ((List.suffix_append _ _).isInfix).trans (List.prefix_append _ _).isInfix

theorem exists_render_of_mem {outer : List (List Declaration)} {start : StartTag}
    (member : start ∈ startTags outer (markups.map Markup.token)) :
    ∃ markup ∈ markups, ∃ closing ∈ [">", "/>"],
      markup.render = '<' :: start.content ++ closing.toList := by
  induction markups generalizing outer with
  | nil => contradiction
  | cons first rest ih =>
    have later {outer : List (List Declaration)}
        (inRest : start ∈ startTags outer (rest.map Markup.token)) :
        ∃ markup ∈ first :: rest, ∃ closing ∈ [">", "/>"],
          markup.render = '<' :: start.content ++ closing.toList := by
      obtain ⟨markup, inMarkups, written⟩ := ih inRest
      exact ⟨markup, List.mem_cons_of_mem _ inMarkups, written⟩
    cases first with
    | opening name attributes =>
      obtain rfl | inRest := List.mem_cons.mp member
      · exact ⟨_, List.mem_cons_self, ">", by simp, rfl⟩
      · exact later inRest
    | selfClosing name attributes =>
      obtain rfl | inRest := List.mem_cons.mp member
      · exact ⟨_, List.mem_cons_self, "/>", by simp, rfl⟩
      · exact later inRest
    | _ => exact later member

end

/-- Of a document that has been assembled one start tag is written for each of its tags, in order, and
stands in the text. No prefix is declared twice in it, and it means the names of its tag if elements
and attributes agree on what their own prefixes stand for. -/
theorem startTags_of_assembled {document : Document} (assembled : document.Assembled)
    (named : ∀ tag ∈ document.root.tags, tag.Named) (options : WriteOptions) :
    List.Forall₂ (StartTag.WrittenFor document.root.tags) (document.startTags options)
        document.root.tags ∧
      ∀ start ∈ document.startTags options, ∃ closing ∈ [">", "/>"],
        '<' :: start.content ++ closing.toList <:+: (document.write options).toList := by
  have comments (entries : List Comment) : ∀ markup ∈ entries.map (Markup.comment ·.text),
      ∀ outer rest, startTags outer (markup.token :: rest) = startTags outer rest := by
    intro markup member outer rest
    obtain ⟨entry, -, rfl⟩ := List.mem_map.mp member
    rfl
  have root : (Content.element document.root.tag document.root.content .empty).tags =
      document.root.tags := by
    simp [Content.tags, Element.tags]
  have origin : ∀ declaration ∈ Naming.initial.declarations,
      declaration.Origin document.root.tags := by simp [Naming.initial, Naming.declarations]
  obtain ⟨-, starts, balanced, written⟩ :=
    startTags_ofContent assembled.tags named origin (by rw [root]; exact fun _ member => member)
  rw [root] at written
  have whole : document.startTags options = starts := by
    unfold Document.startTags Markup.ofDocument Markup.ofElement
    simp only [List.map_append, List.append_assoc]
    rw [startTags_skip (comments _)]
    refine (balanced _).trans ?_
    have trailing := startTags_skip (comments document.trailing) [] []
    rw [List.append_nil] at trailing
    rw [Naming.initial, trailing]
    simp [startTags]
  refine ⟨by rwa [whole], fun start member => ?_⟩
  obtain ⟨markup, inMarkups, closing, kind, rendered⟩ := exists_render_of_mem member
  rw [Document.write, String.toList_ofList]
  exact ⟨closing, kind, rendered ▸ render_infix_writeMarkup options inMarkups⟩

/-- Two makers with one prefix: the inner element declares it once more. Of its attributes one has a
conventional prefix, for the other one is made up. -/
def nestedMakers : Document :=
  Document.ofRoot ((Maker.element ⟨some "u", some "p"⟩ "a").withChild
    (((Maker.element ⟨some "v", some "p"⟩ "b").withAttributeNamed
      (Name.within (some kmlUri) "x") "1").withAttributeNamed (Name.within (some "w") "y") "2"))

theorem assembled_nestedMakers : nestedMakers.Assembled :=
  .ofRoot (.withChild (.made _ _) (.withAttributeNamed _ _ _ (.withAttributeNamed _ _ _ (.made _ _))))

theorem tags_nestedMakers : nestedMakers.root.tags =
    [⟨⟨some "u", "a"⟩, some "p", [], [], none, none⟩,
      ⟨⟨some "v", "b"⟩, some "p", [], [⟨⟨some kmlUri, "x"⟩, some "kml", "1"⟩,
        ⟨⟨some "w", "y"⟩, none, "2"⟩], none, none⟩] := by
  decide

theorem startTags_of_assembled_nestedMakers :
    nestedMakers.Assembled ∧ (∀ tag ∈ nestedMakers.root.tags, tag.Named) ∧
      PrefixesAgree nestedMakers.root.tags ∧
      List.Forall₂ (StartTag.WrittenFor nestedMakers.root.tags)
        (nestedMakers.startTags .standard) nestedMakers.root.tags ∧
      ∀ start ∈ nestedMakers.startTags .standard, ∃ closing ∈ [">", "/>"],
        '<' :: start.content ++ closing.toList <:+: (nestedMakers.write .standard).toList := by
  have named : ∀ tag ∈ nestedMakers.root.tags, tag.Named := by
    have names : ∀ text ∈ ["a", "b", "p", "x", "y"], IsNcName text := by decide
    have part : IsNcName "p" ∧ "p" ≠ "xml" ∧ "p" ≠ "xmlns" := ⟨names "p" (by simp), by decide⟩
    rw [tags_nestedMakers]
    simp only [List.forall_mem_cons, List.not_mem_nil, false_implies, implies_true, and_true]
    refine ⟨⟨names "a" (by simp), ?_, by simp⟩, ⟨names "b" (by simp), ?_, ?_⟩⟩
    · rintro _ ⟨⟩
      exact part
    · rintro _ ⟨⟩
      exact part
    · simp [names "x", names "y"]
  refine ⟨assembled_nestedMakers, named, ?_,
    startTags_of_assembled assembled_nestedMakers named .standard⟩
  rw [tags_nestedMakers]
  simp [PrefixesAgree]

end KeyholeMarkup.Xml

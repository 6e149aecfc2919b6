import KeyholeMarkup.Proofs.Xml.ReadBack
import KeyholeMarkup.Proofs.Xml.WellNamed

/-! Documents that are read and written again. The writer finds every namespace under the prefix that
it was read with, and what is read of its output is the document once more, but for line ends and
blanks that were written by reference. -/
namespace KeyholeMarkup.Xml

section
variable {naming : Naming} {within : Scope} {content : List Char} {tag : Tag}
  {declared : List Declaration}

/-- A tag settles as it is, with what is declared for it, if that gives its name the same namespace. -/
theorem Tag.OpenedBy.tagged (opened : tag.OpenedBy within content)
    (named : WellNamed IsPlainName content) (sound : naming.Sound)
    (soundHere : ∀ declaration ∈ declared, declaration.Sound)
    (distinct : (declared.map (·.nsPrefix)).Nodup)
    (same : (naming.enter declared).scope = within)
    (localName : IsNamePart tag.name.localName)
    (names : (naming.enter declared).NamesElement tag.nsPrefix tag.name.uri)
    (element : (naming.enter tag.declarations).elementName tag =
      (naming.enter declared, tag.writtenName)) :
    Tagged naming tag (naming.enter declared) { tag.unplaced with declarations := declared } := by
  have soundAfter : (naming.enter declared).Sound := sound.of_frames rfl soundHere
  obtain ⟨entries, reads, -, attributes⟩ := opened.entries
  subst same
  have each := soundAfter.attributes_of_reads reads named.attributes
  rw [← attributes] at each
  have written := Naming.attributeNames_of_named fun entry member => (each entry member).1
  exact {
    written := by
      unfold Naming.tag
      simp only [element, written]
      rfl
    frames := rfl
    same := Tag.same_iff.mpr rfl
    unplaced := rfl
    sound := soundHere
    named := names
    attributes := fun entry member => (each entry member).1
    localName
    fits := fun entry member => (each entry member).2
    prefixes := distinct
    names := opened.nodup_written }

theorem Tag.OpenedBy.declarations_sound {scope : Scope} (opened : tag.OpenedBy within content)
    (named : WellNamed IsPlainName content) (entered : scope.enter content = .ok within) :
    (∀ declaration ∈ tag.declarations, declaration.Sound) ∧
      within = bindings tag.declarations.reverse ++ scope ∧
      (tag.declarations.map (·.nsPrefix)).Nodup := by
  obtain ⟨entries, reads, declarations, -⟩ := opened.entries
  rw [Scope.enter, tagAttributes_false opened.complete] at entered
  obtain ⟨sound, same⟩ := Scope.foldlM_declare_of_reads reads named.attributes named.uris entered
  rw [← declarations] at sound same
  exact ⟨sound, same, opened.nodup_declarations⟩

/-- The prefix `xml` as a declaration would bind it. -/
def Declaration.xml : Declaration := ⟨some "xml", xmlUri⟩

theorem Declaration.sound_xml : Declaration.xml.Sound := by
  refine ⟨by decide, ?_⟩
  rintro _ ⟨⟩
  exact ⟨isNamePart_xml, by decide, by decide, by simp [xml]⟩

/-- An element with the prefix `xml` is written with a declaration of it, if there is none in
scope. -/
theorem Naming.elementName_xml (undeclared : (naming.enter tag.declarations).Undeclared "xml")
    (nsPrefix : tag.nsPrefix = some "xml") (uri : tag.name.uri = some xmlUri) :
    (naming.enter tag.declarations).elementName tag =
      (naming.enter (tag.declarations ++ [Declaration.xml]), tag.writtenName) := by
  have missing := Naming.lookup?_of_undeclared undeclared
  have here := Naming.not_isDeclaredHere undeclared
  unfold Naming.elementName Tag.writtenName
  simp only [uri, nsPrefix, missing, here]
  rfl

/-- A tag that has been read settles with the declarations that it has. One for the prefix `xml` is
added where an element has the prefix. -/
theorem Tag.OpenedBy.exists_tagged (opened : tag.OpenedBy within content)
    (named : WellNamed IsPlainName content) (sound : naming.Sound)
    (entered : naming.scope.enter content = .ok within)
    (notXmlns : tag.nsPrefix ≠ some "xmlns") :
    ∃ declared, Tagged naming tag (naming.enter declared)
        { tag.unplaced with declarations := declared } ∧
      (naming.enter declared).scope = within ∧
      (tag.nsPrefix ≠ some "xml" → declared = tag.declarations) := by
  obtain ⟨soundHere, scope, distinct⟩ := opened.declarations_sound named entered
  have soundInside : (naming.enter tag.declarations).Sound := sound.of_frames rfl soundHere
  have same : (naming.enter tag.declarations).scope = within := by
    rw [scope]
    exact Naming.scope_of_frames rfl
  have resolved := opened.name
  rw [← same] at resolved
  obtain ⟨localName, names | ⟨xml, uri, missing⟩⟩ :=
    soundInside.element_of_read resolved opened.nsPrefix named.name notXmlns
  · exact ⟨tag.declarations, opened.tagged named sound soundHere distinct same localName names
      names.elementName, same, fun _ => rfl⟩
  · have undeclared := soundInside.undeclared_xml missing
    have added : (naming.enter (tag.declarations ++ [Declaration.xml])).scope = within := by
      rw [scope, Naming.scope_of_frames rfl, List.reverse_append]
      rfl
    refine ⟨tag.declarations ++ [Declaration.xml], ?_, added, fun other => absurd xml other⟩
    refine opened.tagged named sound ?_ ?_ added localName ?_
      (Naming.elementName_xml undeclared xml uri)
    · refine List.forall_mem_append.mpr ⟨soundHere, ?_⟩
      rintro _ (_ | ⟨_, ⟨⟩⟩)
      exact Declaration.sound_xml
    · rw [List.map_append, List.nodup_append]
      refine ⟨distinct, by simp, ?_⟩
      rintro _ member _ (_ | ⟨_, ⟨⟩⟩) same
      obtain ⟨declaration, listed, rfl⟩ := List.mem_map.mp member
      exact undeclared declaration (Naming.here_subset listed) same
    · rw [xml, uri]
      refine .bound ?_
      have nonempty : xmlUri ≠ "" := by decide
      simp [Naming.lookup?, Naming.declarations, Naming.enter, Declaration.xml, Option.filter,
        nonempty]

end

/-- A content that has been read settles. Without the prefix `xml` on its elements it settles as it
is. -/
theorem exists_settles_of_readFrom {scope : Scope} {content : Content}
    (readFrom : content.ReadFrom (WellNamed IsPlainName) scope)
    (notXmlns : ∀ tag ∈ content.tags, tag.nsPrefix ≠ some "xmlns") :
    ∀ {naming : Naming}, naming.Sound → naming.scope = scope →
      ∃ after settled, Settles naming content after settled ∧
        ((∀ tag ∈ content.tags, tag.nsPrefix ≠ some "xml") → settled = content.unplaced) := by
  induction readFrom with
  | empty => exact fun {naming} _ _ => ⟨naming, .empty, .empty naming, fun _ => rfl⟩
  | comment fits _ ih =>
    intro naming sound same
    obtain ⟨after, settled, settles, plain⟩ := ih notXmlns sound same
    refine ⟨after, _, .comment fits settles, fun notXml => ?_⟩
    rw [plain notXml]
    rfl
  | @element scope within content tag inner rest named entered opened kept _ _ ihInner ihRest =>
    intro naming sound same
    simp only [Content.tags, List.cons_append, List.forall_mem_cons, List.forall_mem_append]
      at notXmlns ⊢
    -- Inside the element both scopes have grown by its declarations, and behind it both are as before.
    obtain ⟨notXmlnsTag, notXmlnsInner, notXmlnsRest⟩ := notXmlns
    subst same
    obtain ⟨declared, tagged, inside, plainTag⟩ :=
      opened.exists_tagged named sound entered notXmlnsTag
    obtain ⟨between, settledInner, settlesInner, plainInner⟩ :=
      ihInner notXmlnsInner (tagged.sound_after sound) inside
    have left : between.leave.frames = naming.frames := settlesInner.leave_frames tagged
    obtain ⟨after, settled, settlesRest, plainRest⟩ :=
      ihRest notXmlnsRest (sound.congr left) (Naming.scope_congr left)
    have keptInner : Tag.TextKept { tag.unplaced with declarations := declared } settledInner := by
      intro text given
      obtain ⟨nonempty, visible⟩ := kept text given
      refine ⟨nonempty, fun filled => visible ?_⟩
      rintro rfl
      cases settlesInner
      exact filled rfl
    refine ⟨after, _, .element tagged keptInner settlesInner settlesRest, ?_⟩
    rintro ⟨notXmlTag, notXmlInner, notXmlRest⟩
    rw [plainTag notXmlTag, plainInner notXmlInner, plainRest notXmlRest]
    rfl

/-- A document that has been read can be written. -/
theorem Document.ReadFrom.writes {document : Document}
    (readFrom : document.ReadFrom (WellNamed IsPlainName))
    (notXmlns : ∀ tag ∈ document.root.tags, tag.nsPrefix ≠ some "xmlns") :
    ∃ after tag inner, DocumentWrites document after tag inner ∧
      ((∀ tag ∈ document.root.tags, tag.nsPrefix ≠ some "xml") →
        tag = document.root.tag.unplaced ∧ inner = document.root.content.unplaced) := by
  have tags : Content.tags (.element document.root.tag document.root.content .empty) =
      document.root.tags := by
    simp [Content.tags, Element.tags]
  have root : Content.ReadFrom (WellNamed IsPlainName) Naming.initial.scope
      (.element document.root.tag document.root.content .empty) := readFrom.root
  obtain ⟨after, settled, settles, plain⟩ :=
    exists_settles_of_readFrom root (tags ▸ notXmlns) Naming.sound_initial rfl
  rw [tags] at plain
  cases settles with
  | @element _ _ _ _ _ _ _ settledTag settledInner _ tagged kept settlesInner settlesRest =>
    cases settlesRest
    refine ⟨_, settledTag, settledInner, ⟨readFrom.leading,
      .element tagged kept settlesInner (.empty _), readFrom.trailing⟩, fun notXml => ?_⟩
    simpa [Content.unplaced] using plain notXml

section
variable {file : Nat} {text : String} {document : Document}

theorem WellNamedText.readFrom (named : WellNamedText IsPlainName text)
    (parsed : parse file text = .ok document) :
    document.ReadFrom (WellNamed IsPlainName) :=
  readFrom_of_parse parsed fun lexeme member content given =>
    named content (List.mem_filterMap.mpr ⟨lexeme, member, given⟩)

/-- A document that has been read can be written and read again. It is then the same document with
its texts and attribute values normalized once more, and so it is the same as before exactly if there
are no carriage returns in its texts and no line ends and tabs in its attribute values. -/
theorem parse_write_of_parse (parsed : parse file text = .ok document)
    (named : WellNamedText IsPlainName text)
    (notXmlns : ∀ tag ∈ document.root.tags, tag.nsPrefix ≠ some "xmlns")
    (again : Nat) (options : WriteOptions) :
    ∃ read, parse again (document.write options) = .ok read ∧ document.reread.same read = true ∧
      (document.same read = true ↔ document.Stable) := by
  obtain ⟨after, tag, inner, writes, -⟩ := (named.readFrom parsed).writes notXmlns
  obtain ⟨read, parsedAgain, readBack⟩ := writes.parse_write again options
  have same := writes.same_reread readBack
  exact ⟨read, parsedAgain, same, Document.same_reread_iff same⟩

end

/-- Characters that were written by reference are written as they are, and then read as line ends. -/
theorem parse_write_of_parse_references :
    ∃ document, parse 0 "<a v=\"1&#10;2&#9;3\">x&#13;y</a>" = .ok document ∧
      ∃ read, parse 0 (document.write .standard) = .ok read ∧
        document.reread.same read = true ∧ document.same read = false := by
  have parsed : parse 0 "<a v=\"1&#10;2&#9;3\">x&#13;y</a>" =
      .ok ⟨[], ⟨⟨⟨none, "a"⟩, none, [], [⟨⟨none, "v"⟩, none, "1\n2\t3"⟩], some "x\ry",
        some ⟨0, 0, 31⟩⟩, .empty⟩, []⟩ := by
    rfl
  have named : WellNamedText IsQualifiedName "<a v=\"1&#10;2&#9;3\">x&#13;y</a>" := by decide
  obtain ⟨read, again, same, stable⟩ :=
    parse_write_of_parse parsed named.isPlainName (by decide) 0 .standard
  refine ⟨_, parsed, read, again, same, ?_⟩
  rw [Bool.eq_false_iff, ne_eq, stable]
  intro whole
  have turn := (whole _ List.mem_cons_self).text _ rfl
  contradiction

/-- The names of an attribute. -/
def Attribute.outline (entry : Attribute) : Attribute := { entry with value := "" }

/-- The names in a tag: those of the element and its attributes with their prefixes, and the
declarations. -/
def Tag.outline (tag : Tag) : Tag :=
  { tag with attributes := tag.attributes.map Attribute.outline, text := none, span := none }

/-- A content with its shape, its comments and the names in its tags. -/
def Content.outline : Content → Content
  | .empty => .empty
  | .comment entry rest => .comment entry.unplaced rest.outline
  | .element tag inner rest => .element tag.outline inner.outline rest.outline

def Document.outline (document : Document) : Document :=
  ⟨document.leading.map Comment.unplaced,
    ⟨document.root.tag.outline, document.root.content.outline⟩,
    document.trailing.map Comment.unplaced⟩

theorem Tag.outline_reread (tag : Tag) : tag.reread.outline = tag.outline := by
  simp [outline, reread, Attribute.outline, Attribute.reread, Function.comp_def]

theorem Content.outline_reread (content : Content) : content.reread.outline = content.outline := by
  induction content with
  | empty => rfl
  | comment entry rest ih => simp only [reread, outline, ih]
  | element tag inner rest ihInner ihRest =>
    simp only [reread, outline, ihInner, ihRest, Tag.outline_reread]

theorem Content.outline_unplaced (content : Content) : content.unplaced.outline = content.outline := by
  induction content with
  | empty => rfl
  | comment entry rest ih => rw [unplaced, outline, outline, ih]; rfl
  | element tag inner rest ihInner ihRest => rw [unplaced, outline, outline, ihInner, ihRest]; rfl

/-- What is written in a tag that opens an element. -/
def Markup.tag? : Markup → Option (String × List (String × String))
  | .opening name attributes | .selfClosing name attributes => some (name, attributes)
  | _ => none

theorem Tag.filterMap_markup {cdata : List Name} {tag : Tag} {name : String}
    {attributes : List (String × String)} {inner : Content} {content : List Markup}
    (bare : inner = .empty → content = []) :
    (tag.markup cdata name attributes inner content).filterMap Markup.tag? =
      (name, attributes) :: content.filterMap Markup.tag? := by
  have texts : (tag.texts cdata).filterMap Markup.tag? = [] := by
    rw [List.filterMap_eq_nil_iff]
    intro markup member
    obtain ⟨text, -, rfl | ⟨part, -, rfl⟩⟩ := mem_texts member <;> rfl
  unfold Tag.markup
  split
  · rename_i childless
    have empty : inner = .empty := by
      cases inner <;> simp [Content.isEmpty] at childless ⊢
    rw [bare empty]
    rfl
  · simp [List.filterMap_cons, texts, Markup.tag?]

/-- The tags that are written are those of the settled content. -/
theorem Settles.filterMap_ofContent {cdata : List Name} {naming after : Naming}
    {content settled : Content} (settles : Settles naming content after settled) :
    (Markup.ofContent cdata naming content).2.filterMap Markup.tag? =
      settled.tags.map fun tag => (tag.writtenName, tag.entries) := by
  induction settles with
  | empty naming => rfl
  | comment fits settles ih => exact ih
  | @element _ _ inner _ within _ _ _ _ _ tagged kept settlesInner settlesRest ihInner ihRest =>
    have bare : inner = .empty → (Markup.ofContent cdata within inner).2 = [] := by
      rintro rfl
      rfl
    rw [ofContent_element tagged.written, settlesInner.naming_eq, List.filterMap_append,
      Tag.filterMap_markup bare, ihInner, ihRest]
    simp [Content.tags]

theorem Content.tags_unplaced (content : Content) :
    content.unplaced.tags = content.tags.map Tag.unplaced := by
  induction content with
  | empty => rfl
  | comment entry rest ih => exact ih
  | element tag inner rest ihInner ihRest => simp [unplaced, tags, ihInner, ihRest]

section
variable {file : Nat} {text : String} {document : Document}

/-- Without the two prefixes that need no declaration on its elements, a document that has been read
is written with the prefixes and the declarations that it was read with, and with no others. What is
read of it has the same names, prefixes and declarations in the same places. -/
theorem outline_of_parse_write (parsed : parse file text = .ok document)
    (named : WellNamedText IsQualifiedName text)
    (declared : ∀ tag ∈ document.root.tags,
      tag.nsPrefix ≠ some "xml" ∧ tag.nsPrefix ≠ some "xmlns")
    (again : Nat) (options : WriteOptions) :
    (∃ read, parse again (document.write options) = .ok read ∧ read.outline = document.outline) ∧
      (Markup.ofElement options.cdata document.root).filterMap Markup.tag? =
        document.root.tags.map fun tag => (tag.writtenName, tag.entries) := by
  obtain ⟨after, tag, inner, writes, plain⟩ :=
    (named.isPlainName.readFrom parsed).writes fun tag member => (declared tag member).2
  obtain ⟨read, parsedAgain, readBack⟩ := writes.parse_write again options
  obtain ⟨rfl, rfl⟩ := plain fun tag member => (declared tag member).1
  refine ⟨⟨read, parsedAgain, ?_⟩, ?_⟩
  rotate_left
  · refine writes.root.filterMap_ofContent.trans ?_
    simp only [Content.tags, Content.tags_unplaced, Element.tags, List.append_nil, List.map_cons,
      List.map_map]
    rfl
  obtain ⟨readTag, readInner⟩ := Element.mk.inj readBack.root
  have tagOutline : read.root.tag.outline = document.root.tag.outline := by
    calc read.root.tag.outline = read.root.tag.unplaced.outline := rfl
      _ = document.root.tag.unplaced.reread.outline := by rw [readTag]
      _ = document.root.tag.unplaced.outline := Tag.outline_reread _
      _ = document.root.tag.outline := rfl
  have contentOutline : read.root.content.outline = document.root.content.outline := by
    rw [← Content.outline_unplaced, readInner, Content.outline_reread, Content.outline_unplaced]
  rw [Document.outline, Document.outline, tagOutline, contentOutline, readBack.leading,
    readBack.trailing]

end

theorem outline_of_parse_write_shadowed :
    ∃ document, parse 0 "<k:a xmlns:k='urn:k' xmlns='urn:d' k:v='1'><b xmlns=''/></k:a>" =
        .ok document ∧
      ∃ read, parse 0 (document.write .standard) = .ok read ∧ read.outline = document.outline := by
  have parsed : parse 0 "<k:a xmlns:k='urn:k' xmlns='urn:d' k:v='1'><b xmlns=''/></k:a>" =
      .ok ⟨[], ⟨⟨⟨some "urn:k", "a"⟩, some "k", [⟨some "k", "urn:k"⟩, ⟨none, "urn:d"⟩],
        [⟨⟨some "urn:k", "v"⟩, some "k", "1"⟩], none, some ⟨0, 0, 62⟩⟩,
          .element ⟨⟨none, "b"⟩, none, [⟨none, ""⟩], [], none, some ⟨0, 43, 56⟩⟩ .empty .empty⟩,
        []⟩ := by
    rfl
  exact ⟨_, parsed, (outline_of_parse_write parsed (by decide) (by decide) 0 .standard).1⟩

set_option maxRecDepth 2000 in
/-- An element may be read with the prefix `xmlns`. A declaration of it is written, which is not
accepted. -/
theorem parse_write_xmlns_element :
    ∃ document, parse 0 "<xmlns:a/>" = .ok document ∧ WellNamedText IsQualifiedName "<xmlns:a/>" ∧
      (∀ tag ∈ document.root.tags, tag.nsPrefix ≠ some "xml") ∧
      parse 0 (document.write .standard) =
        .error (.syntaxFault (BindingFault.xmlnsBound xmlnsUri.toList).message (some ⟨0, 0, 0⟩)) := by
  have parsed : parse 0 "<xmlns:a/>" =
      .ok ⟨[], ⟨⟨⟨some xmlnsUri, "a"⟩, some "xmlns", [], [], none, some ⟨0, 0, 10⟩⟩, .empty⟩, []⟩ := by
    rfl
  have written : Document.write
      ⟨[], ⟨⟨⟨some xmlnsUri, "a"⟩, some "xmlns", [], [], none, some ⟨0, 0, 10⟩⟩, .empty⟩, []⟩
      .standard = "<?xml version=\"1.0\" encoding=\"UTF-8\"?>\n" ++
        "<xmlns:a xmlns:xmlns=\"http://www.w3.org/2000/xmlns/\"/>\n" := by
    rfl
  refine ⟨_, parsed, by decide, by decide, ?_⟩
  rw [written]
  rfl

end KeyholeMarkup.Xml

import KeyholeMarkup.Proofs.Schema.Loading

/-! Attributes that count in a schema document. An attribute is found by its local name, and the
first one of a name is taken; all others can be left out. -/
namespace KeyholeMarkup.Schema
open KeyholeMarkup.Storage KeyholeMarkup.Xml

/-- The local names of the attributes that are read on an element of a schema document. -/
def attributesRead (element : String) : List String :=
  match element with
  | "schema" => ["targetNamespace", "elementFormDefault", "attributeFormDefault"]
  | "import" | "include" => ["schemaLocation"]
  | "element" => ["name", "ref", "type", "form", "substitutionGroup", "abstract"]
  | "complexType" | "simpleType" => ["name"]
  | "group" | "attributeGroup" => ["name", "ref"]
  | "any" => ["namespace", "processContents"]
  | "attribute" => ["use", "ref", "name", "form"]
  | "extension" | "restriction" => ["base"]
  | _ => []

/-- The second tag has the same name and declarations, and an attribute that is read has the same
value on it. -/
structure ReadsAlike (first second : Tag) : Prop where
  name : second.name = first.name
  declarations : second.declarations = first.declarations
  attribute? : inSchema first → ∀ attributeName ∈ attributesRead first.name.localName,
    second.attribute? attributeName = first.attribute? attributeName

/-- Contents of one shape whose tags read alike. -/
inductive ContentsAlike : Content → Content → Prop
  | empty : ContentsAlike .empty .empty
  | comment {entry entry' rest rest'} : ContentsAlike rest rest' →
    ContentsAlike (.comment entry rest) (.comment entry' rest')
  | element {tag tag' inner inner' rest rest'} : ReadsAlike tag tag' → ContentsAlike inner inner' →
    ContentsAlike rest rest' → ContentsAlike (.element tag inner rest) (.element tag' inner' rest')

/-- The attributes that are read of a child for its role. -/
def Role.attributesRead : Role → List String
  | .element => ["name", "ref", "type", "form", "substitutionGroup", "abstract"]
  | .groupReference | .attributeGroupReference => ["ref"]
  | .wildcard => ["namespace", "processContents"]
  | .attributeUse => ["use", "ref", "name", "form"]
  | _ => []

theorem attributesRead_role (body : Body) (localName : String) :
    (body.role localName).attributesRead ⊆ Schema.attributesRead localName := by
  unfold Body.role
  split
  case h_12 => simp [Role.attributesRead]
  all_goals split <;> simp [Role.attributesRead, Schema.attributesRead]

theorem attributesRead_derivation {localName : String} {derivation : Derivation}
    (derives : derivation? localName = some derivation) : "base" ∈ attributesRead localName := by
  unfold derivation? at derives
  split at derives
  · decide
  · decide
  · cases derives

section
variable {settings : Settings} {bindings : Bindings} {tag tag' : Tag}

/-- A tag as it is read for its role: these attributes have the same value on both. -/
def AgreeIn (names : List String) (first second : Tag) : Prop :=
  ∀ attributeName ∈ names, second.attribute? attributeName = first.attribute? attributeName

theorem ReadsAlike.agreeIn (alike : ReadsAlike tag tag') (schema : inSchema tag = true)
    {names : List String} (read : names ⊆ attributesRead tag.name.localName) :
    AgreeIn names tag tag' :=
  fun attributeName listed => alike.attribute? schema attributeName (read listed)

theorem ReadsAlike.inSchema (alike : ReadsAlike tag tag') :
    Schema.inSchema tag' = Schema.inSchema tag := by
  rw [Schema.inSchema, alike.name]
  rfl

theorem ReadsAlike.enter (alike : ReadsAlike tag tag') : bindings.enter tag' = bindings.enter tag := by
  rw [Bindings.enter, alike.declarations]
  rfl

theorem ReadsAlike.within (alike : ReadsAlike tag tag') (body : Body) :
    body.bindings bindings tag' = body.bindings bindings tag := by
  rw [Body.bindings, Body.bindings, alike.enter]

theorem reference_agree (name : tag'.name = tag.name) {attributeName : String}
    (agree : tag'.attribute? attributeName = tag.attribute? attributeName) :
    reference settings bindings tag' attributeName = reference settings bindings tag attributeName := by
  rw [reference, reference, agree, name]

theorem isQualified_agree {otherwise : Bool} (agree : tag'.attribute? "form" = tag.attribute? "form") :
    isQualified tag' otherwise = isQualified tag otherwise := by
  rw [isQualified, isQualified, agree]

theorem wildcard_agree (agree : AgreeIn Role.wildcard.attributesRead tag tag') :
    wildcard settings tag' = wildcard settings tag := by
  simp only [AgreeIn, Role.attributesRead, List.forall_mem_cons] at agree
  obtain ⟨namespaces, process, -⟩ := agree
  rw [wildcard, wildcard, namespaces, process]

theorem attributeUse?_agree (name : tag'.name = tag.name)
    (agree : AgreeIn Role.attributeUse.attributesRead tag tag') :
    attributeUse? settings bindings tag' = attributeUse? settings bindings tag := by
  simp only [AgreeIn, Role.attributesRead, List.forall_mem_cons] at agree
  obtain ⟨use, ref, named, form, -⟩ := agree
  simp only [attributeUse?, use, ref, named, reference_agree name ref, isQualified_agree form]

theorem elementDeclaration_agree (name : tag'.name = tag.name)
    (agree : AgreeIn Role.element.attributesRead tag tag') {inner inner' : Content}
    (simple : hasSimpleType inner' = hasSimpleType inner) (isGlobal : Bool)
    (type : Except LoadError (Option ComplexType)) :
    elementDeclaration settings bindings tag' inner' isGlobal (fun _ => type) =
      elementDeclaration settings bindings tag inner isGlobal (fun _ => type) := by
  simp only [AgreeIn, Role.attributesRead, List.forall_mem_cons] at agree
  obtain ⟨named, -, type, form, substitutes, isAbstract, -⟩ := agree
  simp only [elementDeclaration, named, type, substitutes, isAbstract, simple,
    reference_agree name type, reference_agree name substitutes, isQualified_agree form]

theorem globalName_agree (name : tag'.name = tag.name)
    (agree : tag'.attribute? "name" = tag.attribute? "name") :
    globalName settings tag' = globalName settings tag := by
  rw [globalName, globalName, agree, name]

end

/-- What is read of a content, by all the ways of reading one. -/
structure SameRead (settings : Settings) (first second : Content) : Prop where
  items : ∀ body bindings, items settings body bindings second = items settings body bindings first
  derivedItems : ∀ bindings, derivedItems settings bindings second = derivedItems settings bindings first
  typeInside : ∀ bindings, typeInside settings bindings second = typeInside settings bindings first
  hasSimpleType : hasSimpleType second = hasSimpleType first

theorem ContentsAlike.sameRead {first second : Content} (alike : ContentsAlike first second)
    (settings : Settings) : SameRead settings first second := by
  induction alike with
  | empty => exact ⟨fun _ _ => rfl, fun _ => rfl, fun _ => rfl, rfl⟩
  | comment _ ih => exact ⟨ih.items, ih.derivedItems, ih.typeInside, ih.hasSimpleType⟩
  | @element tag tag' inner inner' rest rest' alike _ _ ihInner ihRest =>
    have name := alike.name
    refine ⟨?_, ?_, ?_, ?_⟩
    · intro body bindings
      rw [Schema.items, Schema.items, ihRest.items, alike.inSchema, alike.within, name]
      cases schema : inSchema tag with
      | false => rfl
      | true =>
        have agree := alike.agreeIn schema (attributesRead_role body tag.name.localName)
        simp only [if_true]
        cases role : body.role tag.name.localName with
        | element =>
          rw [role] at agree
          have ref : tag'.attribute? "ref" = tag.attribute? "ref" := agree "ref" (by decide)
          simp only [ref, reference_agree name ref, ihInner.typeInside,
            elementDeclaration_agree name agree ihInner.hasSimpleType]
        | compositor => simp only [ihInner.items]
        | groupReference | attributeGroupReference =>
          rw [role] at agree
          simp only [reference_agree name (agree "ref" (by decide))]
        | wildcard =>
          rw [role] at agree
          simp only [wildcard_agree agree]
        | attributeUse =>
          rw [role] at agree
          simp only [attributeUse?_agree name agree]
        | anyAttribute | other => rfl
        | complexContent | simpleContent => simp only [ihInner.derivedItems]
    · intro bindings
      rw [Schema.derivedItems, Schema.derivedItems, ihRest.derivedItems, alike.inSchema, alike.enter,
        name]
      cases schema : inSchema tag with
      | false => rfl
      | true =>
        simp only [if_true]
        cases derives : derivation? tag.name.localName with
        | none => rfl
        | some derivation =>
          have base := alike.attribute? schema "base" (attributesRead_derivation derives)
          simp only [reference_agree name base, ihInner.items]
    · intro bindings
      rw [Schema.typeInside, Schema.typeInside, ihRest.typeInside, ihInner.items, alike.inSchema,
        alike.enter, name]
    · have rest := ihRest.hasSimpleType
      simp only [Schema.hasSimpleType] at rest
      simp only [Schema.hasSimpleType, Content.elements, List.any_cons, alike.inSchema, name, rest]

section
variable {settings : Settings} {bindings : Bindings} {first second : Content}

theorem definition?_alike {tag tag' : Tag} (alike : ReadsAlike tag tag')
    (schema : inSchema tag = true) (same : SameRead settings first second) :
    definition? settings bindings tag' second = definition? settings bindings tag first := by
  have name := alike.name
  have read := alike.attribute? schema
  unfold definition?
  rw [name]
  split
  case h_8 => rfl
  all_goals
    rename_i localName
    rw [localName] at read
  · rw [read "schemaLocation" (by decide)]
  · rw [read "schemaLocation" (by decide)]
  · have agree : AgreeIn Role.element.attributesRead tag tag' := read
    simp only [same.typeInside, elementDeclaration_agree name agree same.hasSimpleType]
  · rw [globalName_agree name (read "name" (by decide)), same.items]
  · rw [globalName_agree name (read "name" (by decide))]
  · rw [globalName_agree name (read "name" (by decide)), same.items]
  · rw [globalName_agree name (read "name" (by decide)), same.items]

theorem definitions_alike (alike : ContentsAlike first second) :
    definitions settings bindings second = definitions settings bindings first := by
  induction alike with
  | empty => rfl
  | comment _ ih => exact ih
  | @element tag tag' inner inner' rest rest' alike inside _ _ ih =>
    rw [definitions, definitions, ih, alike.inSchema, alike.enter]
    cases schema : inSchema tag with
    | false => rfl
    | true => simp only [if_true, definition?_alike alike schema (inside.sameRead settings)]

/-- Documents that read alike add the same definitions, or have the same fault. -/
theorem definitionsOf_alike {first second : Document}
    (root : ReadsAlike first.root.tag second.root.tag)
    (content : ContentsAlike first.root.content second.root.content) (file : Option Path)
    (inherited : Option String) :
    definitionsOf file inherited second = definitionsOf file inherited first := by
  have schema : IsSchema second ↔ IsSchema first := isSchema_congr root.name
  by_cases own : IsSchema first
  · have read := root.attribute? own.1
    rw [own.2] at read
    have settings : settingsOf file inherited second = settingsOf file inherited first := by
      simp only [settingsOf, read "targetNamespace" (by decide),
        read "elementFormDefault" (by decide), read "attributeFormDefault" (by decide)]
    rw [definitionsOf, definitionsOf, if_pos own, if_pos (schema.mpr own), settings, root.enter,
      definitions_alike content]
  · rw [definitionsOf, definitionsOf, if_neg own, if_neg (mt schema.mp own), root.name]

end

/-- The second tag may have one more attribute, of any namespace. It stands behind one with its local
name, or else is not one that is read on an element of this name. -/
structure Extended (first second : Tag) : Prop where
  name : second.name = first.name
  declarations : second.declarations = first.declarations
  attributes : second.attributes = first.attributes ∨
    ∃ before extra after, first.attributes = before ++ after ∧
      second.attributes = before ++ extra :: after ∧
      (inSchema first → extra.name.localName ∈ attributesRead first.name.localName →
        ∃ entry ∈ before, entry.name.localName = extra.name.localName)

/-- The tags of the second content may have more attributes. -/
inductive ContentExtended : Content → Content → Prop
  | empty : ContentExtended .empty .empty
  | comment {entry entry' rest rest'} : ContentExtended rest rest' →
    ContentExtended (.comment entry rest) (.comment entry' rest')
  | element {tag tag' inner inner' rest rest'} : Extended tag tag' → ContentExtended inner inner' →
    ContentExtended rest rest' →
    ContentExtended (.element tag inner rest) (.element tag' inner' rest')

theorem Extended.readsAlike {first second : Tag} (extended : Extended first second) :
    ReadsAlike first second := by
  refine ⟨extended.name, extended.declarations, ?_⟩
  intro schema attributeName read
  obtain same | ⟨before, extra, after, own, more, overlooked⟩ := extended.attributes
  · rw [Tag.attribute?, Tag.attribute?, same]
  · rw [Tag.attribute?, Tag.attribute?, own, more, List.find?_append, List.find?_append]
    by_cases other : extra.name.localName = attributeName
    · obtain ⟨entry, earlier, same⟩ := overlooked schema (other ▸ read)
      have found : (before.find? (·.name.localName == attributeName)).isSome := by
        apply List.find?_isSome.mpr
        exact ⟨entry, earlier, by simp [same, other]⟩
      obtain ⟨nearest, found⟩ := Option.isSome_iff_exists.mp found
      rw [found]
      rfl
    · rw [List.find?_cons_of_neg (by simpa using other)]

theorem ContentExtended.contentsAlike {first second : Content}
    (extended : ContentExtended first second) : ContentsAlike first second := by
  induction extended with
  | empty => exact .empty
  | comment _ ih => exact .comment ih
  | element tag _ _ ihInner ihRest => exact .element tag.readsAlike ihInner ihRest

/-- More attributes, of whatever namespaces, change nothing about a schema, its faults included, where
each of them has a local name that is not read on its element, or stands behind an attribute with
this name. This holds for the main schema and for a file that is mentioned. -/
theorem load_extended {text text' : String} {first second : Document}
    (parsed : Xml.parse 0 text = .ok first) (parsed' : Xml.parse 0 text' = .ok second)
    (root : Extended first.root.tag second.root.tag)
    (content : ContentExtended first.root.content second.root.content)
    (tree : Tree) (folders : List Path) :
    (MainSchema.text text').load tree folders = (MainSchema.text text).load tree folders ∧
    ∀ (place : List String) (main : MainSchema),
      tree.entryAt place = some (.file text.toUTF8) →
      main.load (tree.put place (.file text'.toUTF8)) folders = main.load tree folders := by
  have same (file : Option Path) (inherited : Option String) :
      definitionsIn file inherited text' = definitionsIn file inherited text := by
    simp only [definitionsIn, parsed, parsed',
      definitionsOf_alike root.readsAlike content.contentsAlike]
  constructor
  · rw [MainSchema.load_eq, MainSchema.load_eq, MainSchema.begin, MainSchema.begin,
      Progress.addText_eq, Progress.addText_eq, same]
  · intro place main held
    have added (file : Path) (inherited : Option String) :
        definitionsAt (tree.put place (.file text'.toUTF8)) file place inherited =
          definitionsAt tree file place inherited := by
      rw [definitionsAt_text held, definitionsAt_text (Tree.entryAt_put tree place _), same]
    apply MainSchema.load_put held
    · intro file _
      exact added file none
    · intro file inherited
      rw [added]

/-- A schema with one element, and what is written on the tags behind their own attributes. -/
def oneElementText (onSchema onElement : String) : String :=
  "<s:schema xmlns:s='http://www.w3.org/2001/XMLSchema' xmlns:x='u'" ++ onSchema ++
    "><s:element name='a'" ++ onElement ++ "/></s:schema>"

/-- The schema with one element as it is parsed. The element starts and ends at these bytes. -/
def oneElement (onSchema onElement : List Attribute) (start stop : Nat) : Document :=
  ⟨[], ⟨⟨⟨some schemaUri, "schema"⟩, some "s", [⟨some "s", schemaUri⟩, ⟨some "x", "u"⟩], onSchema,
      none, some ⟨0, 0, stop + 11⟩⟩,
    .element ⟨⟨some schemaUri, "element"⟩, some "s", [], ⟨.plain "name", none, "a"⟩ :: onElement, none,
      some ⟨0, start, stop⟩⟩ .empty .empty⟩, []⟩

set_option maxRecDepth 8000 in
theorem load_extended_foreign :
    ∃ first second,
      Xml.parse 0 (oneElementText "" "") = .ok first ∧
      Xml.parse 0 (oneElementText " x:version='1'" " x:name='b'") = .ok second ∧
      Extended first.root.tag second.root.tag ∧
      ContentExtended first.root.content second.root.content ∧
      (MainSchema.text (oneElementText " x:version='1'" " x:name='b'")).load ⟨[], []⟩ [] =
        (MainSchema.text (oneElementText "" "")).load ⟨[], []⟩ [] ∧
      (MainSchema.source "a").load
          (Tree.put ⟨[(["a"], .file (oneElementText "" "").toUTF8)], []⟩ ["a"]
            (.file (oneElementText " x:version='1'" " x:name='b'").toUTF8)) [] =
        (MainSchema.source "a").load ⟨[(["a"], .file (oneElementText "" "").toUTF8)], []⟩ [] := by
  have parsed : Xml.parse 0 (oneElementText "" "") = .ok (oneElement [] [] 65 86) := by rfl
  have parsed' : Xml.parse 0 (oneElementText " x:version='1'" " x:name='b'") =
      .ok (oneElement [⟨⟨some "u", "version"⟩, some "x", "1"⟩] [⟨⟨some "u", "name"⟩, some "x", "b"⟩]
        79 111) := by rfl
  have root : Extended (oneElement [] [] 65 86).root.tag
      (oneElement [⟨⟨some "u", "version"⟩, some "x", "1"⟩] [⟨⟨some "u", "name"⟩, some "x", "b"⟩]
        79 111).root.tag :=
    ⟨rfl, rfl, .inr ⟨[], _, [], rfl, rfl, fun _ read => absurd read (by decide)⟩⟩
  have content : ContentExtended (oneElement [] [] 65 86).root.content
      (oneElement [⟨⟨some "u", "version"⟩, some "x", "1"⟩] [⟨⟨some "u", "name"⟩, some "x", "b"⟩]
        79 111).root.content :=
    .element ⟨rfl, rfl, .inr ⟨[_], _, [], rfl, rfl, fun _ _ => ⟨_, List.mem_cons_self, rfl⟩⟩⟩
      .empty .empty
  exact ⟨_, _, parsed, parsed', root, content, (load_extended parsed parsed' root content _ _).1,
    (load_extended parsed parsed' root content _ _).2 ["a"] _ rfl⟩

end KeyholeMarkup.Schema

import KeyholeMarkup.Proofs.Xml.InScope
import KeyholeMarkup.Proofs.Xml.Presentation
import KeyholeMarkup.Schema.Definition

/-! Schema documents without prefixes. The references of each element are resolved first, by the
declarations on it and around it; the definitions are then made of a tree in which no prefixes and
declarations are left. A schema document says the same, except that what the children of a global
group declare is not seen. -/
namespace KeyholeMarkup.Schema
open KeyholeMarkup.Xml

/-- What the references in the attributes of an element stand for. -/
structure References where
  ref : Except LoadError Name
  type : Except LoadError Name
  base : Except LoadError Name
  substitutes : Except LoadError Name

/-- The declarations in scope, nearest first. -/
def Bindings.around (around : List (List Declaration)) : Bindings := around.flatMap List.reverse

/-- A prefix stands for what its nearest declaration says, and `xml` needs none. -/
theorem Bindings.lookup_around (around : List (List Declaration)) (nsPrefix : Option String) :
    (Bindings.around around).lookup nsPrefix =
      if nsPrefix = some "xml" then some xmlUri else (nearest? around nsPrefix).map (·.uri) := rfl

@[simp] theorem Bindings.enter_around (around : List (List Declaration)) (tag : Tag) :
    (Bindings.around around).enter tag = Bindings.around (tag.declarations :: around) := rfl

/-- The references of a tag with these declarations on it and around it. -/
def References.within (settings : Settings) (around : List (List Declaration)) (tag : Tag) :
    References :=
  let name := reference settings (Bindings.around around) tag
  ⟨name "ref", name "type", name "base", name "substitutionGroup"⟩

/-- The elements of a schema document with their references. Of the tags all that depends on
prefixes is left out. -/
inductive Resolved
  | empty
  | element (tag : Tag) (references : References) (inner rest : Resolved)

/-- Resolves the references in a content. The declarations on an element are in scope for its own
references and for those inside of it. -/
def Resolved.ofContent (settings : Settings) (around : List (List Declaration)) : Content → Resolved
  | .empty => .empty
  | .comment _ rest => ofContent settings around rest
  | .element tag inner rest =>
    if inSchema tag then
      .element tag.bare (.within settings (tag.declarations :: around) tag)
        (ofContent settings (tag.declarations :: around) inner) (ofContent settings around rest)
    else ofContent settings around rest

namespace References

def attributeUse? (references : References) (settings : Settings) (tag : Tag) :
    Except LoadError (Option AttributeUse) :=
  let required := tag.attribute? "use" == some "required"
  if tag.attribute? "use" == some "prohibited" then .ok none
  else if (tag.attribute? "ref").isSome then do return some ⟨← references.ref, required, true⟩
  else
    match tag.attribute? "name" with
    | none => settings.flawed .unnamedAttribute
    | some localName =>
      let name := settings.name (isQualified tag settings.attributesQualified) localName
      .ok (some ⟨name, required, false⟩)

/-- The declaration of an element, with the type inside of it for when no attribute names one. -/
def elementDeclaration (references : References) (settings : Settings) (tag : Tag) (isGlobal : Bool)
    (inside : Except LoadError TypeUse) : Except LoadError ElementDeclaration := do
  let localName ←
    match tag.attribute? "name" with
    | some localName => pure localName
    | none => settings.flawed .unnamedElement
  let type ← if (tag.attribute? "type").isSome then TypeUse.named <$> references.type else inside
  let substitutes ←
    if (tag.attribute? "substitutionGroup").isSome then some <$> references.substitutes
    else pure none
  let isAbstract := tag.attribute? "abstract" == some "true" || tag.attribute? "abstract" == some "1"
  return ⟨settings.name (isGlobal || isQualified tag settings.elementsQualified) localName, type,
    substitutes, isAbstract⟩

end References

/-- A simple type stands for one that is not specified. -/
def TypeUse.orSimple (type : TypeUse) (isSimple : Bool) : TypeUse :=
  match type with
  | .unspecified => if isSimple then .anonymous .simple else .unspecified
  | type => type

namespace Resolved

mutual

def items (settings : Settings) (body : Body) : Resolved → Except LoadError (List Item)
  | .empty => .ok []
  | .element tag references inner rest => do
    let first ←
      match body.role tag.name.localName with
      | .element =>
        if (tag.attribute? "ref").isSome then do
          pure [Item.particle (.reference (← references.ref))]
        else do
          let declaration ← references.elementDeclaration settings tag false
            (inner.typeInside settings)
          pure [Item.particle (.element declaration)]
      | .compositor => do
        let particles ← inner.items settings .compositor
        pure [Item.particle (.compositor (particles.filterMap Item.particle?))]
      | .groupReference => do pure [Item.particle (.group (← references.ref))]
      | .wildcard => pure [Item.particle (.any (wildcard settings tag))]
      | .attributeUse => do
        pure ((← references.attributeUse? settings tag).toList.map Item.attributeUse)
      | .attributeGroupReference => do pure [Item.attributeGroup (← references.ref)]
      | .anyAttribute => pure [Item.anyAttribute]
      | .complexContent => inner.derivedItems settings
      | .simpleContent => do pure ((← inner.derivedItems settings) ++ [Item.simpleContent])
      | .other => pure []
    return first ++ (← rest.items settings body)

def derivedItems (settings : Settings) : Resolved → Except LoadError (List Item)
  | .empty => .ok []
  | .element tag references inner rest => do
    let first ←
      match derivation? tag.name.localName with
      | none => pure []
      | some derivation => do
        let base ← references.base
        pure (Item.base base derivation :: (← inner.items settings .derivation))
    return first ++ (← rest.derivedItems settings)

/-- The type that an element has by the first complex type inside of it, or else by a simple one. -/
def typeInside (settings : Settings) : Resolved → Except LoadError TypeUse
  | .empty => .ok .unspecified
  | .element tag _ inner rest => do
    if tag.name.localName = "complexType" then
      return .anonymous (.complex (.ofItems (← inner.items settings .type)))
    else return (← rest.typeInside settings).orSimple (tag.name.localName == "simpleType")

end

def definition? (settings : Settings) (tag : Tag) (references : References) (inner : Resolved) :
    Except LoadError (Option Definition) := do
  match tag.name.localName with
  | "import" => return (tag.attribute? "schemaLocation").map (.mention · none)
  | "include" => return (tag.attribute? "schemaLocation").map (.mention · settings.target)
  | "element" =>
    let declaration ← references.elementDeclaration settings tag true (inner.typeInside settings)
    return some (.element declaration)
  | "complexType" =>
    let name ← globalName settings tag
    return some (.type name (.complex (.ofItems (← inner.items settings .type))))
  | "simpleType" => return some (.type (← globalName settings tag) .simple)
  | "group" =>
    let name ← globalName settings tag
    let particles ← inner.items settings .group
    return some (.group name (.compositor (particles.filterMap Item.particle?)))
  | "attributeGroup" =>
    let name ← globalName settings tag
    return some (.attributeGroup name (.ofItems (← inner.items settings .attributeGroup)))
  | _ => return none

/-- The definitions up to the first flaw, which is given with them. -/
def definitions (settings : Settings) : Resolved → List Definition × Option LoadError
  | .empty => ([], none)
  | .element tag references inner rest =>
    match definition? settings tag references inner with
    | .error error => ([], some error)
    | .ok first =>
      let (others, error) := rest.definitions settings
      (first.toList ++ others, error)

end Resolved

section
variable (settings : Settings) (tag : Tag)

@[simp] theorem bare_attribute? (attributeName : String) :
    tag.bare.attribute? attributeName = tag.attribute? attributeName := by
  simp [Tag.attribute?, Tag.bare, List.find?_map, Function.comp_def, Attribute.bare]

@[simp] theorem bare_name : tag.bare.name = tag.name := rfl

@[simp] theorem isQualified_bare (otherwise : Bool) :
    isQualified tag.bare otherwise = isQualified tag otherwise := by
  simp [isQualified]

@[simp] theorem wildcard_bare : wildcard settings tag.bare = wildcard settings tag := by
  simp [wildcard]

@[simp] theorem globalName_bare : globalName settings tag.bare = globalName settings tag := by
  simp [globalName]

theorem attributeUse?_eq (around : List (List Declaration)) :
    attributeUse? settings (.around around) tag =
      (References.within settings around tag).attributeUse? settings tag.bare := by
  cases given : tag.attribute? "name" <;>
    simp only [attributeUse?, References.attributeUse?, References.within, bare_attribute?,
      isQualified_bare, given]

end

/-- The type of an element by what is inside of it. -/
def typeOfInside (inner : Content) : Option ComplexType → TypeUse
  | some type => .anonymous (.complex type)
  | none => if hasSimpleType inner then .anonymous .simple else .unspecified

/-- An element in front counts if it is a simple type. -/
theorem typeOfInside_element {tag : Tag} (schema : inSchema tag = true) (inner rest : Content)
    (type : Option ComplexType) : typeOfInside (.element tag inner rest) type =
      (typeOfInside rest type).orSimple (tag.name.localName == "simpleType") := by
  cases type with
  | some type => rfl
  | none =>
    have simple : hasSimpleType (.element tag inner rest) =
        (tag.name.localName == "simpleType" || hasSimpleType rest) := by
      simp [hasSimpleType, Content.elements, schema]
    simp only [typeOfInside, simple]
    cases hasSimpleType rest <;> cases tag.name.localName == "simpleType" <;> rfl

theorem elementDeclaration_eq (settings : Settings) (around : List (List Declaration)) (tag : Tag)
    (inner : Content) (isGlobal : Bool) (type : Except LoadError (Option ComplexType)) :
    elementDeclaration settings (.around around) tag inner isGlobal (fun _ => type) =
      (References.within settings around tag).elementDeclaration settings tag.bare isGlobal
        (typeOfInside inner <$> type) := by
  simp only [elementDeclaration, References.elementDeclaration, References.within, bare_attribute?,
    isQualified_bare]
  congr 1
  funext localName
  split
  · rfl
  · cases type with
    | error error => rfl
    | ok type => cases type <;> rfl

theorem body_bindings {body : Body} (other : body ≠ .group) (bindings : Bindings) (tag : Tag) :
    body.bindings bindings tag = bindings.enter tag := if_neg other

/-- What is read of a content, other than the children of a global group, is read of its elements
with their references resolved. -/
structure ReadResolved (settings : Settings) (around : List (List Declaration))
    (content : Content) : Prop where
  items : ∀ body, body ≠ .group → items settings body (.around around) content =
    (Resolved.ofContent settings around content).items settings body
  derivedItems : derivedItems settings (.around around) content =
    (Resolved.ofContent settings around content).derivedItems settings
  typeInside : typeOfInside content <$> typeInside settings (.around around) content =
    (Resolved.ofContent settings around content).typeInside settings

theorem readResolved (settings : Settings) (around : List (List Declaration)) (content : Content) :
    ReadResolved settings around content := by
  induction content generalizing around with
  | empty => exact ⟨fun _ _ => rfl, rfl, rfl⟩
  | comment entry rest ih => exact ⟨(ih around).items, (ih around).derivedItems, (ih around).typeInside⟩
  | element tag inner rest ihInner ihRest =>
    -- The declarations on the element are the nearest ones for what is inside of it, and are gone
    -- behind it.
    obtain ⟨readInner, derivedInner, typeInner⟩ := ihInner (tag.declarations :: around)
    obtain ⟨readRest, derivedRest, typeRest⟩ := ihRest around
    cases schema : inSchema tag with
    | false =>
      refine ⟨?_, ?_, ?_⟩
      · intro body other
        simp [items, Resolved.ofContent, schema, readRest body other]
      · simp [derivedItems, Resolved.ofContent, schema, derivedRest]
      · have same : typeOfInside (.element tag inner rest) = typeOfInside rest := by
          funext type
          cases type <;> simp [typeOfInside, hasSimpleType, Content.elements, schema]
        simp [typeInside, Resolved.ofContent, schema, ← typeRest, same]
    | true =>
      refine ⟨?_, ?_, ?_⟩
      · intro body other
        simp only [items, Resolved.items, Resolved.ofContent, schema, if_true, body_bindings other,
          Bindings.enter_around, bare_name, bare_attribute?, readRest body other]
        cases role : body.role tag.name.localName with
        | element => simp only [elementDeclaration_eq, typeInner, References.within]
        | compositor => simp only [readInner .compositor (by decide)]
        | groupReference | attributeGroupReference => simp only [References.within]
        | wildcard => simp only [wildcard_bare]
        | anyAttribute | other => rfl
        | attributeUse => simp only [attributeUse?_eq]
        | complexContent => simp only [derivedInner]
        | simpleContent => simp only [derivedInner]
      · simp only [derivedItems, Resolved.derivedItems, Resolved.ofContent, schema, if_true,
          Bindings.enter_around, bare_name, derivedRest]
        cases derivation? tag.name.localName with
        | none => rfl
        | some derivation => simp only [readInner .derivation (by decide), References.within]
      · rw [Resolved.ofContent, if_pos schema, Resolved.typeInside, typeInside]
        by_cases complex : tag.name.localName = "complexType"
        · simp only [schema, complex, true_and, if_true, Bindings.enter_around, bare_name,
            readInner .type (by decide)]
          cases (Resolved.ofContent settings (tag.declarations :: around) inner).items settings
            .type <;> rfl
        · simp only [complex, and_false, if_false, bare_name, ← typeRest]
          cases typeInside settings (.around around) rest with
          | error error => rfl
          | ok type => exact congrArg Except.ok (typeOfInside_element schema inner rest type)

/-- A content without the declarations on its elements, but with those further inside. -/
def undeclared : Content → Content
  | .empty => .empty
  | .comment entry rest => .comment entry (undeclared rest)
  | .element tag inner rest =>
    .element (if inSchema tag then { tag with declarations := [] } else tag) inner (undeclared rest)

/-- The particles of a global group are read as those of a compositor, but without the declarations
on them. -/
theorem items_group (settings : Settings) (bindings : Bindings) (content : Content) :
    items settings .group bindings content =
      items settings .compositor bindings (undeclared content) := by
  induction content with
  | empty => rfl
  | comment entry rest ih => exact ih
  | element tag inner rest _ ih =>
    rw [undeclared, items, items, ih]
    cases schema : inSchema tag with
    | false => simp [schema]
    | true =>
      have stripped : inSchema { tag with declarations := [] } = true := schema
      simp only [if_true, stripped]
      rfl

/-- The content of a schema element as it is read: what the children of a global group declare is
not seen. -/
def asRead : Content → Content
  | .empty => .empty
  | .comment entry rest => .comment entry (asRead rest)
  | .element tag inner rest =>
    .element tag (if inSchema tag ∧ tag.name.localName = "group" then undeclared inner else inner)
      (asRead rest)

theorem Resolved.items_group (settings : Settings) (resolved : Resolved) :
    resolved.items settings .group = resolved.items settings .compositor := by
  induction resolved with
  | empty => rfl
  | element tag references inner rest _ ih =>
    rw [items, items, ih]
    rfl

/-- A child of the schema element with its references resolved. -/
theorem definition?_eq (settings : Settings) (around : List (List Declaration)) (tag : Tag)
    (inner : Content) :
    definition? settings (.around around) tag inner =
      Resolved.definition? settings tag.bare (.within settings around tag)
        (.ofContent settings around
          (if tag.name.localName = "group" then undeclared inner else inner)) := by
  obtain ⟨read, -, type⟩ := readResolved settings around inner
  have particles := (readResolved settings around (undeclared inner)).items
  unfold definition? Resolved.definition?
  simp only [bare_name, bare_attribute?, globalName_bare, elementDeclaration_eq,
    Schema.items_group, Resolved.items_group, particles .compositor (by decide), type,
    read .type (by decide), read .attributeGroup (by decide)]
  generalize tag.name.localName = localName
  split
  · rfl
  · rfl
  · rfl
  · rfl
  · rfl
  · rfl
  · rfl
  · simp

/-- The definitions in a schema document are those of its elements with their references resolved. -/
theorem definitions_eq (settings : Settings) (around : List (List Declaration)) (content : Content) :
    definitions settings (.around around) content =
      (Resolved.ofContent settings around (asRead content)).definitions settings := by
  induction content with
  | empty => rfl
  | comment entry rest ih => exact ih
  | element tag inner rest _ ih =>
    rw [definitions, asRead, Resolved.ofContent, Bindings.enter_around, definition?_eq, ih]
    cases schema : inSchema tag with
    | false => simp
    | true =>
      simp only [if_true, true_and]
      rfl

end KeyholeMarkup.Schema

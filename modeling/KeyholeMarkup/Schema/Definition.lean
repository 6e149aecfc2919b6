import KeyholeMarkup.Schema.Components
import KeyholeMarkup.Schema.Error
import KeyholeMarkup.Text.Blank
import KeyholeMarkup.Xml.Document
import KeyholeMarkup.Xml.Namespaces

/-! The definitions in a schema document. The children of an element are read as a list of items,
from which the component is made; the first flaw ends the reading. Elements of other namespaces are
passed over, and attributes are found by their local names. -/
namespace KeyholeMarkup.Schema
open KeyholeMarkup.Storage KeyholeMarkup.Text KeyholeMarkup.Xml

/-- What holds for a whole schema document. -/
structure Settings where
  file : Option Path
  /-- The namespace of its components. -/
  target : Option String
  elementsQualified : Bool
  attributesQualified : Bool
deriving DecidableEq, Repr

/-- The namespace declarations in scope, nearest first. -/
abbrev Bindings := List Declaration

namespace Bindings

def enter (bindings : Bindings) (tag : Tag) : Bindings := tag.declarations.reverse ++ bindings

def lookup (bindings : Bindings) (nsPrefix : Option String) : Option String :=
  if nsPrefix = some "xml" then some xmlUri
  else (bindings.find? (·.nsPrefix == nsPrefix)).map (·.uri)

end Bindings

def inSchema (tag : Tag) : Bool := tag.name.uri == some schemaUri

namespace Settings

def flawed {α : Type} (settings : Settings) (flaw : Flaw) : Except LoadError α :=
  .error (.flawed settings.file flaw)

/-- The name of a component, in the target namespace if it is qualified. -/
def name (settings : Settings) (qualified : Bool) (localName : String) : Name :=
  .within (if qualified then settings.target else none) localName

end Settings

def reference (settings : Settings) (bindings : Bindings) (tag : Tag) (attributeName : String) :
    Except LoadError Name :=
  match tag.attribute? attributeName with
  | none => settings.flawed (.missingAttribute tag.name.localName attributeName)
  | some value =>
    let written := trim value.toList
    let nsPrefix := if written.contains ':' then some (written.takeWhile (· ≠ ':')) else none
    let localName := if written.contains ':' then (written.dropWhile (· ≠ ':')).drop 1 else written
    if localName.isEmpty then settings.flawed (.emptyLocalName (String.ofList written))
    else
      match nsPrefix.map String.ofList, bindings.lookup (nsPrefix.map String.ofList) with
      | _, some uri => .ok (.within (some uri) (String.ofList localName))
      | none, none => .ok (.plain (String.ofList localName))
      | some unbound, none => settings.flawed (.unboundPrefix (String.ofList written) unbound)

/-- The part of a component that a child stands for. -/
inductive Item
  | particle (particle : Particle)
  | attributeUse (entry : AttributeUse)
  | attributeGroup (name : Name)
  | anyAttribute
  | base (name : Name) (derivation : Derivation)
  | simpleContent

def Item.particle? : Item → Option Particle
  | .particle entry => some entry
  | _ => none

/-- Adds an item to a type. Of several bases or contents the last one counts. -/
def ComplexType.add (type : ComplexType) : Item → ComplexType
  | .particle particle => { type with content := .particle particle }
  | .attributeUse entry => { type with attributes := type.attributes ++ [entry] }
  | .attributeGroup name => { type with attributeGroups := type.attributeGroups ++ [name] }
  | .anyAttribute => { type with anyAttribute := true }
  | .base name derivation => { type with base := some (name, derivation) }
  | .simpleContent => { type with content := .simple }

def ComplexType.ofItems (items : List Item) : ComplexType := items.foldl ComplexType.add .empty

def AttributeGroup.ofItems (items : List Item) : AttributeGroup :=
  let type := ComplexType.ofItems items
  ⟨type.attributes, type.attributeGroups, type.anyAttribute⟩

def constraint (target : Option String) (written : String) : NamespaceConstraint :=
  let text := String.ofList (trim written.toList)
  if text = "##any" then .any
  else if text = "##other" then .other target
  else .list ((words written.toList).map fun word =>
    let word := String.ofList word
    if word = "##local" then none
    else if word = "##targetNamespace" then target
    else some word)

def wildcard (settings : Settings) (tag : Tag) : Wildcard :=
  { namespaces := constraint settings.target ((tag.attribute? "namespace").getD "##any")
    strictness :=
      match tag.attribute? "processContents" with
      | some "lax" => .lax
      | some "skip" => .skip
      | _ => .strict }

/-- Whether a local component takes the target namespace: as it says itself, or as the document
says. -/
def isQualified (tag : Tag) (otherwise : Bool) : Bool :=
  match tag.attribute? "form" with
  | some form => form == "qualified"
  | none => otherwise

/-- A prohibited attribute is none at all. -/
def attributeUse? (settings : Settings) (bindings : Bindings) (tag : Tag) :
    Except LoadError (Option AttributeUse) :=
  let required := tag.attribute? "use" == some "required"
  if tag.attribute? "use" == some "prohibited" then .ok none
  else if (tag.attribute? "ref").isSome then do
    return some ⟨← reference settings bindings tag "ref", required, true⟩
  else
    match tag.attribute? "name" with
    | none => settings.flawed .unnamedAttribute
    | some localName =>
      let name := settings.name (isQualified tag settings.attributesQualified) localName
      .ok (some ⟨name, required, false⟩)

def hasSimpleType (inner : Content) : Bool :=
  inner.elements.any fun child => inSchema child.tag && child.tag.name.localName == "simpleType"

/-- The declaration of an element. The type inside of it is read if no attribute names one. -/
def elementDeclaration (settings : Settings) (bindings : Bindings) (tag : Tag) (inner : Content)
    (isGlobal : Bool) (typeInside : Unit → Except LoadError (Option ComplexType)) :
    Except LoadError ElementDeclaration := do
  let localName ←
    match tag.attribute? "name" with
    | some localName => pure localName
    | none => settings.flawed .unnamedElement
  let type ←
    if (tag.attribute? "type").isSome then
      TypeUse.named <$> reference settings bindings tag "type"
    else
      match ← typeInside () with
      | some type => pure (TypeUse.anonymous (.complex type))
      | none => pure (if hasSimpleType inner then TypeUse.anonymous .simple else .unspecified)
  let substitutes ←
    if (tag.attribute? "substitutionGroup").isSome then
      some <$> reference settings bindings tag "substitutionGroup"
    else pure none
  let isAbstract := tag.attribute? "abstract" == some "true" || tag.attribute? "abstract" == some "1"
  return ⟨settings.name (isGlobal || isQualified tag settings.elementsQualified) localName, type,
    substitutes, isAbstract⟩

/-- The components whose children are read as items. -/
inductive Body
  | group
  | compositor
  | attributeGroup
  | derivation
  | type
deriving DecidableEq, Repr

/-- What a child is read as. -/
inductive Role
  | element
  | compositor
  | groupReference
  | wildcard
  | attributeUse
  | attributeGroupReference
  | anyAttribute
  | complexContent
  | simpleContent
  | other
deriving DecidableEq, Repr

namespace Body

def hasParticles : Body → Bool
  | .attributeGroup => false
  | _ => true

def hasAttributes : Body → Bool
  | .group | .compositor => false
  | _ => true

def role (body : Body) (localName : String) : Role :=
  match localName with
  | "element" => if body.hasParticles then .element else .other
  | "sequence" | "choice" | "all" => if body.hasParticles then .compositor else .other
  | "group" => if body.hasParticles then .groupReference else .other
  | "any" => if body.hasParticles then .wildcard else .other
  | "attribute" => if body.hasAttributes then .attributeUse else .other
  | "attributeGroup" => if body.hasAttributes then .attributeGroupReference else .other
  | "anyAttribute" => if body.hasAttributes then .anyAttribute else .other
  | "complexContent" => if body = .type then .complexContent else .other
  | "simpleContent" => if body = .type then .simpleContent else .other
  | _ => .other

/-- The bindings for a child. Those that a child of a group declares itself do not count. -/
def bindings (body : Body) (bindings : Bindings) (tag : Tag) : Bindings :=
  if body = .group then bindings else bindings.enter tag

end Body

def derivation? (localName : String) : Option Derivation :=
  match localName with
  | "extension" => some .extension
  | "restriction" => some .restriction
  | _ => none

mutual

def items (settings : Settings) (body : Body) (bindings : Bindings) :
    Content → Except LoadError (List Item)
  | .empty => .ok []
  | .comment _ rest => items settings body bindings rest
  | .element tag inner rest => do
    let own := body.bindings bindings tag
    let first ←
      match if inSchema tag then body.role tag.name.localName else .other with
      | .element =>
        if (tag.attribute? "ref").isSome then do
          pure [Item.particle (.reference (← reference settings own tag "ref"))]
        else do
          let declaration ← elementDeclaration settings own tag inner false fun _ =>
            typeInside settings own inner
          pure [Item.particle (.element declaration)]
      | .compositor => do
        let particles ← items settings .compositor own inner
        pure [Item.particle (.compositor (particles.filterMap Item.particle?))]
      | .groupReference => do
        pure [Item.particle (.group (← reference settings own tag "ref"))]
      | .wildcard => pure [Item.particle (.any (wildcard settings tag))]
      | .attributeUse => do
        pure ((← attributeUse? settings own tag).toList.map Item.attributeUse)
      | .attributeGroupReference => do
        pure [Item.attributeGroup (← reference settings own tag "ref")]
      | .anyAttribute => pure [Item.anyAttribute]
      | .complexContent => derivedItems settings own inner
      | .simpleContent => do
        pure ((← derivedItems settings own inner) ++ [Item.simpleContent])
      | .other => pure []
    return first ++ (← items settings body bindings rest)

/-- The items of the extensions and restrictions in a content definition. -/
def derivedItems (settings : Settings) (bindings : Bindings) :
    Content → Except LoadError (List Item)
  | .empty => .ok []
  | .comment _ rest => derivedItems settings bindings rest
  | .element tag inner rest => do
    let own := bindings.enter tag
    let first ←
      match if inSchema tag then derivation? tag.name.localName else none with
      | none => pure []
      | some derivation => do
        let base ← reference settings own tag "base"
        pure (Item.base base derivation :: (← items settings .derivation own inner))
    return first ++ (← derivedItems settings bindings rest)

/-- The first complex type among the children of an element. -/
def typeInside (settings : Settings) (bindings : Bindings) :
    Content → Except LoadError (Option ComplexType)
  | .empty => .ok none
  | .comment _ rest => typeInside settings bindings rest
  | .element tag inner rest =>
    if inSchema tag ∧ tag.name.localName = "complexType" then do
      return some (.ofItems (← items settings .type (bindings.enter tag) inner))
    else typeInside settings bindings rest

end

/-- A global component, or a mention of another schema document. -/
inductive Definition
  /-- An included document without a target namespace takes the one given here. -/
  | mention (source : String) (target : Option String)
  | element (declaration : ElementDeclaration)
  | type (name : Name) (definition : TypeDefinition)
  | group (name : Name) (particle : Particle)
  | attributeGroup (name : Name) (group : AttributeGroup)

def globalName (settings : Settings) (tag : Tag) : Except LoadError Name :=
  match tag.attribute? "name" with
  | some localName => .ok (settings.name true localName)
  | none => settings.flawed (.unnamedComponent tag.name.localName)

/-- The definition that a child of the schema element makes. -/
def definition? (settings : Settings) (bindings : Bindings) (tag : Tag) (inner : Content) :
    Except LoadError (Option Definition) := do
  match tag.name.localName with
  | "import" => return (tag.attribute? "schemaLocation").map (.mention · none)
  | "include" => return (tag.attribute? "schemaLocation").map (.mention · settings.target)
  | "element" =>
    let declaration ← elementDeclaration settings bindings tag inner true fun _ =>
      typeInside settings bindings inner
    return some (.element declaration)
  | "complexType" =>
    let name ← globalName settings tag
    return some (.type name (.complex (.ofItems (← items settings .type bindings inner))))
  | "simpleType" => return some (.type (← globalName settings tag) .simple)
  | "group" =>
    let name ← globalName settings tag
    let particles ← items settings .group bindings inner
    return some (.group name (.compositor (particles.filterMap Item.particle?)))
  | "attributeGroup" =>
    let name ← globalName settings tag
    return some (.attributeGroup name (.ofItems (← items settings .attributeGroup bindings inner)))
  | _ => return none

/-- The definitions in the content of the schema element up to the first flaw, which is given with
them. -/
def definitions (settings : Settings) (bindings : Bindings) :
    Content → List Definition × Option LoadError
  | .empty => ([], none)
  | .comment _ rest => definitions settings bindings rest
  | .element tag inner rest =>
    match if inSchema tag then definition? settings (bindings.enter tag) tag inner else .ok none with
    | .error error => ([], some error)
    | .ok first =>
      let (others, error) := definitions settings bindings rest
      (first.toList ++ others, error)

end KeyholeMarkup.Schema

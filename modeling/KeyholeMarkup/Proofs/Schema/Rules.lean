import KeyholeMarkup.Proofs.Schema.Substitution
import KeyholeMarkup.Schema.Validation

/-! The rules of validation as relations. Types, content models and elements are related to what the
components say of them, without depths and without an order of visits. The components are complete
if nothing they refer to is missing, and shallow if no chain of references is too long to follow. -/
namespace KeyholeMarkup.Schema
open KeyholeMarkup.Xml

inductive Piece
  | declaration (declaration : ElementDeclaration)
  | definition (definition : TypeDefinition)
  | particle (particle : Particle)

/-- The declarations, definitions and particles in the components, nested ones included. -/
inductive Occurs (components : Components) : Piece → Prop
  | element {name declaration} : components.elements.find? name = some declaration →
    Occurs components (.declaration declaration)
  | type {name definition} : components.types.find? name = some definition →
    Occurs components (.definition definition)
  | group {name particle} : components.groups.find? name = some particle →
    Occurs components (.particle particle)
  | anonymous {declaration definition} : Occurs components (.declaration declaration) →
    declaration.type = .anonymous definition → Occurs components (.definition definition)
  | content {type particle} : Occurs components (.definition (.complex type)) →
    type.content = .particle particle → Occurs components (.particle particle)
  | nested {particles particle} : Occurs components (.particle (.compositor particles)) →
    particle ∈ particles → Occurs components (.particle particle)
  | inPlace {declaration} : Occurs components (.particle (.element declaration)) →
    Occurs components (.declaration declaration)

namespace Components
variable (components : Components)

def HasType (name : Name) : Prop := isBuiltin name ∨ (components.types.find? name).isSome

/-- Every type, head of an untyped element, group and attribute group referred to is there. -/
structure Complete : Prop where
  type : ∀ declaration name, Occurs components (.declaration declaration) →
    declaration.type = .named name → components.HasType name
  head : ∀ declaration head, Occurs components (.declaration declaration) →
    declaration.type = .unspecified → declaration.substitutes = some head →
    (components.elements.find? head).isSome
  base : ∀ type name derivation, Occurs components (.definition (.complex type)) →
    type.base = some (name, derivation) → components.HasType name
  group : ∀ name, Occurs components (.particle (.group name)) → (components.groups.find? name).isSome
  attributeGroup : ∀ type name, Occurs components (.definition (.complex type)) →
    name ∈ type.attributeGroups → (components.attributeGroups.find? name).isSome
  innerGroup : ∀ name group inner, components.attributeGroups.find? name = some group →
    inner ∈ group.groups → (components.attributeGroups.find? inner).isSome

/-- Attribute groups that lead to others at most so many times. -/
inductive GroupsWithin : Nat → List Name → Prop
  | nil {depth} : GroupsWithin depth []
  | cons {depth name names} : (∀ group, components.attributeGroups.find? name = some group →
      GroupsWithin depth group.groups) →
    GroupsWithin (depth + 1) names → GroupsWithin (depth + 1) (name :: names)

/-- A definition with at most so many types below it. What is left of the depth at a type is also
the bound for its attribute groups. -/
inductive DefinitionWithin : Nat → TypeDefinition → Prop
  | simple {depth} : DefinitionWithin depth .simple
  | underived {depth type} : type.base = .none →
    components.GroupsWithin depth type.attributeGroups → DefinitionWithin depth (.complex type)
  | derived {depth type name derivation} : type.base = some (name, derivation) →
    (∀ definition, isBuiltin name = false → components.types.find? name = some definition →
      DefinitionWithin depth definition) →
    components.GroupsWithin (depth + 1) type.attributeGroups →
    DefinitionWithin (depth + 1) (.complex type)

/-- An element whose type is found at a head less than so many steps away. -/
inductive DeclarationWithin : Nat → ElementDeclaration → Prop
  | typed {depth declaration} : declaration.type ≠ .unspecified →
    DeclarationWithin (depth + 1) declaration
  | untyped {depth declaration} : declaration.type = .unspecified →
    (∀ head other, declaration.substitutes = some head →
      components.elements.find? head = some other → DeclarationWithin depth other) →
    DeclarationWithin (depth + 1) declaration

/-- A particle with at most so many compositors and groups on the way to any leaf. -/
inductive ParticleWithin : Nat → Particle → Prop
  | element {depth declaration} : ParticleWithin depth (.element declaration)
  | reference {depth name} : ParticleWithin depth (.reference name)
  | any {depth wildcard} : ParticleWithin depth (.any wildcard)
  | compositor {depth particles} : (∀ particle ∈ particles, ParticleWithin depth particle) →
    ParticleWithin (depth + 1) (.compositor particles)
  | group {depth name} : (∀ particle, components.groups.find? name = some particle →
      ParticleWithin depth particle) → ParticleWithin (depth + 1) (.group name)

/-- No chain of references is longer than the depth up to which they are followed. -/
structure Shallow : Prop where
  definition : ∀ definition, Occurs components (.definition definition) →
    components.DefinitionWithin referenceDepth definition
  declaration : ∀ declaration, Occurs components (.declaration declaration) →
    components.DeclarationWithin referenceDepth declaration
  particle : ∀ particle, Occurs components (.particle particle) →
    components.ParticleWithin referenceDepth particle

end Components

def EffectiveType.addGroup (type : EffectiveType) (group : AttributeGroup) : EffectiveType :=
  { type with
    attributes := type.attributes ++ group.attributes
    anyAttribute := type.anyAttribute || group.anyAttribute }

/-- A complex type with what it inherits from its base, if it has one, but without its groups. -/
def ComplexType.onto (type : ComplexType) (inherited : EffectiveType) : EffectiveType :=
  let own := type.content.model?
  let start : EffectiveType :=
    match type.base with
    | none => ⟨own.getD (.particles []), [], false⟩
    | some (_, .extension) => { inherited with content := inherited.content.extend own }
    | some (_, .restriction) => ⟨own.getD (.particles []), inherited.attributes, false⟩
  let extended := type.attributes.foldl EffectiveType.addAttribute start
  { extended with anyAttribute := extended.anyAttribute || type.anyAttribute }

/-- The attributes of some groups, and of the groups in them, are added to a type. -/
inductive Grouped (components : Components) : List Name → EffectiveType → EffectiveType → Prop
  | nil {type} : Grouped components [] type type
  | cons {name names group type inner after} :
    components.attributeGroups.find? name = some group →
    Grouped components group.groups (type.addGroup group) inner →
    Grouped components names inner after → Grouped components (name :: names) type after

/-- The type that is meant by its use, with all that it is derived from. -/
inductive Effective (components : Components) : TypeUse → EffectiveType → Prop
  | anyType {name} : isAnyType name → Effective components (.named name) .any
  | builtin {name} : isBuiltin name → isAnyType name = false →
    Effective components (.named name) .textOnly
  | named {name definition type} : isBuiltin name = false →
    components.types.find? name = some definition →
    Effective components (.anonymous definition) type → Effective components (.named name) type
  | simple : Effective components (.anonymous .simple) .textOnly
  | underived {type full} : type.base = none →
    Grouped components type.attributeGroups (type.onto .empty) full →
    Effective components (.anonymous (.complex type)) full
  | derived {type name derivation inherited full} : type.base = some (name, derivation) →
    Effective components (.named name) inherited →
    Grouped components type.attributeGroups (type.onto inherited) full →
    Effective components (.anonymous (.complex type)) full

/-- The type of an element: its own, that of its head, or any. -/
inductive TypeOf (components : Components) : ElementDeclaration → EffectiveType → Prop
  | own {declaration type} : Effective components declaration.type type →
    TypeOf components declaration type
  | head {declaration head other type} : declaration.type = .unspecified →
    declaration.substitutes = some head → components.elements.find? head = some other →
    TypeOf components other type → TypeOf components declaration type
  | untyped {declaration} : declaration.type = .unspecified → declaration.substitutes = none →
    TypeOf components declaration .any

/-- The elements, references and wildcards of a content model in order, with compositors and groups
replaced by what is in them. -/
inductive Flattens (components : Components) : List Particle → List Particle → Prop
  | nil : Flattens components [] []
  | element {declaration rest leaves} : Flattens components rest leaves →
    Flattens components (.element declaration :: rest) (.element declaration :: leaves)
  | reference {name rest leaves} : Flattens components rest leaves →
    Flattens components (.reference name :: rest) (.reference name :: leaves)
  | any {wildcard rest leaves} : Flattens components rest leaves →
    Flattens components (.any wildcard :: rest) (.any wildcard :: leaves)
  | compositor {particles inner rest leaves} : Flattens components particles inner →
    Flattens components rest leaves →
    Flattens components (.compositor particles :: rest) (inner ++ leaves)
  | group {name particle inner rest leaves} : components.groups.find? name = some particle →
    Flattens components [particle] inner → Flattens components rest leaves →
    Flattens components (.group name :: rest) (inner ++ leaves)

/-- A particle that is made for a child of this name. -/
inductive Matches (components : Components) (child : Name) : Particle → Prop
  | element {declaration} : declaration.name = child → Matches components child (.element declaration)
  | same : Matches components child (.reference child)
  | substitute {head} : Joins components.substitutions [head] child →
    Matches components child (.reference head)
  | any {wildcard} : wildcard.namespaces.allows child.uri → Matches components child (.any wildcard)

/-- What a particle wants a child to be checked against. -/
inductive Demands (components : Components) (child : Name) : Particle → Target → Prop
  | element {declaration} : Demands components child (.element declaration) (.declared declaration)
  | reference {head declaration} : components.elements.find? child = some declaration →
    Demands components child (.reference head) (.declared declaration)
  | skip {wildcard} : wildcard.strictness = .skip → Demands components child (.any wildcard) .skip
  | lax {wildcard} : wildcard.strictness ≠ .skip → Demands components child (.any wildcard) .lax

/-- A child is admitted by the first particle that is made for it. -/
def Admits (components : Components) (particles : List Particle) (child : Name) (target : Target) :
    Prop :=
  ∃ before leaf after, Flattens components particles (before ++ leaf :: after) ∧
    (∀ other ∈ before, ¬ Matches components child other) ∧
    Matches components child leaf ∧ Demands components child leaf target

/-- The attributes of an element are those that its type wants and allows. -/
structure AttributesFit (type : EffectiveType) (element : Element) : Prop where
  required : ∀ entry ∈ type.attributes, entry.required →
    ∃ given ∈ element.tag.attributes, given.name = entry.name
  allowed : ∀ given ∈ element.tag.attributes,
    (∃ entry ∈ type.attributes, entry.name = given.name) ∨
      (given.name.uri ≠ none ∧ given.name.uri ≠ element.name.uri) ∨ type.anyAttribute

/-- An element that is as its target says, with everything in it. -/
inductive Meets (components : Components) : Target → Element → Prop
  | skip {element} : Meets components .skip element
  | global {element declaration} : components.elements.find? element.name = some declaration →
    Meets components (.declared declaration) element → Meets components .lax element
  | unknown {element} : components.elements.find? element.name = none →
    (∀ child ∈ element.content.elements, Meets components .lax child) →
    Meets components .lax element
  | any {declaration element type} : declaration.isAbstract = false →
    TypeOf components declaration type → type.content = .any →
    (∀ child ∈ element.content.elements, Meets components .lax child) →
    Meets components (.declared declaration) element
  | textOnly {declaration element type} : declaration.isAbstract = false →
    TypeOf components declaration type → type.content = .textOnly → AttributesFit type element →
    element.content.elements = [] → Meets components (.declared declaration) element
  | particles {declaration element type particles} (targets : Name → Target) :
    declaration.isAbstract = false → TypeOf components declaration type →
    type.content = .particles particles → AttributesFit type element →
    (∀ child ∈ element.content.elements,
      Admits components particles child.name (targets child.name)) →
    (∀ child ∈ element.content.elements, Meets components (targets child.name) child) →
    Meets components (.declared declaration) element

/-- A document whose root has a global declaration and meets it. -/
def Valid (components : Components) (document : Document) : Prop :=
  ∃ declaration, components.elements.find? document.root.name = some declaration ∧
    Meets components (.declared declaration) document.root

end KeyholeMarkup.Schema

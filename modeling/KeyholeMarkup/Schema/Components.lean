import KeyholeMarkup.Schema.MemberSearch

/-! The components of a schema: declarations of elements, types, groups and attribute groups, each
found by its name. Which elements a content model admits is all that it says; order and numbers of
occurrences do not count. -/
namespace KeyholeMarkup.Schema
open KeyholeMarkup.Xml

def schemaUri : String := "http://www.w3.org/2001/XMLSchema"

inductive Derivation
  | extension
  | restriction
deriving DecidableEq, Repr

/-- How content that a wildcard admits is checked. -/
inductive Strictness
  | strict
  | lax
  | skip
deriving DecidableEq, Repr

/-- The namespaces of a wildcard. In a list `none` stands for names in no namespace. -/
inductive NamespaceConstraint
  | any
  /-- Any namespace but this one; names in no namespace are excluded as well. -/
  | other (uri : Option String)
  | list (uris : List (Option String))
deriving DecidableEq, Repr

def NamespaceConstraint.allows : NamespaceConstraint → Option String → Bool
  | .any, _ => true
  | .other target, uri => uri.isSome && uri != target
  | .list uris, uri => uris.contains uri

structure Wildcard where
  namespaces : NamespaceConstraint
  strictness : Strictness
deriving DecidableEq, Repr

/-- An attribute that a type admits, declared in place or by reference. -/
structure AttributeUse where
  name : Name
  required : Bool
  byReference : Bool
deriving DecidableEq, Repr

structure AttributeGroup where
  attributes : List AttributeUse
  groups : List Name
  anyAttribute : Bool
deriving DecidableEq, Repr

mutual

structure ElementDeclaration where
  name : Name
  type : TypeUse
  /-- The head of the substitution group of the element. -/
  substitutes : Option Name
  isAbstract : Bool

/-- Without a type of its own an element has that of its head, or any content. -/
inductive TypeUse
  | unspecified
  | named (name : Name)
  | anonymous (definition : TypeDefinition)

/-- Elements of a simple type hold text alone. -/
inductive TypeDefinition
  | simple
  | complex (definition : ComplexType)

structure ComplexType where
  base : Option (Name × Derivation)
  content : TypeContent
  attributes : List AttributeUse
  attributeGroups : List Name
  anyAttribute : Bool

inductive TypeContent
  | empty
  | simple
  | particle (particle : Particle)

inductive Particle
  | element (declaration : ElementDeclaration)
  | reference (name : Name)
  /-- A sequence, a choice or an unordered group. -/
  | compositor (particles : List Particle)
  | group (name : Name)
  | any (wildcard : Wildcard)

end

def ComplexType.empty : ComplexType := ⟨none, .empty, [], [], false⟩

structure Components where
  elements : Table ElementDeclaration
  types : Table TypeDefinition
  groups : Table Particle
  attributeGroups : Table AttributeGroup
  /-- The members of each substitution group, by its head, in the order of their declarations. -/
  substitutions : Table (List Name)

namespace Components

def none : Components := ⟨[], [], [], [], []⟩

def addElement (components : Components) (declaration : ElementDeclaration) : Components :=
  let substitutions :=
    match declaration.substitutes with
    | .none => components.substitutions
    | some head =>
      let members := (components.substitutions.find? head).getD []
      components.substitutions.insert head (members ++ [declaration.name])
  { components with
    elements := components.elements.insert declaration.name declaration
    substitutions := substitutions }

/-- Whether an element may stand in for the head of a substitution group, directly or through other
groups. -/
def substitutesFor (components : Components) (member head : Name) : Bool :=
  MemberSearch.answer components.substitutions member ⟨[head], []⟩

end Components

/-- Types that need no definition. -/
def isBuiltin (name : Name) : Bool := name.uri == some schemaUri

def isAnyType (name : Name) : Bool := isBuiltin name && name.localName == "anyType"

end KeyholeMarkup.Schema

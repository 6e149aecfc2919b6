import KeyholeMarkup.Schema.Components
import KeyholeMarkup.Schema.Issue

/-! The type of an element with all that it is derived from. Chains of derivations, of attribute
groups and of substitution groups are followed up to a depth, so that circles come to an end. -/
namespace KeyholeMarkup.Schema
open KeyholeMarkup.Xml

def referenceDepth : Nat := 64

inductive ContentModel
  | any
  | textOnly
  | particles (particles : List Particle)

structure EffectiveType where
  content : ContentModel
  attributes : List AttributeUse
  anyAttribute : Bool

namespace EffectiveType

def any : EffectiveType := ⟨.any, [], true⟩
def textOnly : EffectiveType := ⟨.textOnly, [], false⟩
def empty : EffectiveType := ⟨.particles [], [], false⟩

/-- An attribute takes the place of an inherited one of its name. -/
def addAttribute (type : EffectiveType) (entry : AttributeUse) : EffectiveType :=
  { type with attributes := type.attributes.filter (·.name ≠ entry.name) ++ [entry] }

end EffectiveType

/-- The content of a type by itself, if it has any. -/
def TypeContent.model? : TypeContent → Option ContentModel
  | .empty => none
  | .simple => some .textOnly
  | .particle content => some (.particles [content])

/-- The content of an extension: that of its base and its own. -/
def ContentModel.extend : ContentModel → Option ContentModel → ContentModel
  | base, none => base
  | .any, some _ => .any
  | _, some .textOnly => .textOnly
  | .particles inherited, some (.particles own) => .particles (inherited ++ own)
  | .textOnly, some own => own
  | _, some .any => .any

/-- A result with the components that were found missing on the way, in order. -/
structure Lookup (α : Type) where
  result : α
  missing : List Missing

namespace Components

/-- Adds the attributes of the named groups and of the groups in them. A group that is missing lets
any attribute pass. -/
def withGroups (components : Components) :
    Nat → List Name → EffectiveType → Lookup EffectiveType
  | 0, _, type => ⟨type, []⟩
  | depth + 1, names, type =>
    names.foldl (fun found name =>
      match components.attributeGroups.find? name with
      | .none =>
        ⟨{ found.result with anyAttribute := true }, found.missing ++ [⟨.attributeGroup, name⟩]⟩
      | some group =>
        let type := { found.result with
          attributes := found.result.attributes ++ group.attributes
          anyAttribute := found.result.anyAttribute || group.anyAttribute }
        let inner := components.withGroups depth group.groups type
        ⟨inner.result, found.missing ++ inner.missing⟩) ⟨type, []⟩

/-- A named type by the way its definition is resolved. -/
def namedType (components : Components) (name : Name)
    (resolve : TypeDefinition → Lookup EffectiveType) : Lookup EffectiveType :=
  if isAnyType name then ⟨.any, []⟩
  else if isBuiltin name then ⟨.textOnly, []⟩
  else
    match components.types.find? name with
    | some definition => resolve definition
    | .none => ⟨.any, [⟨.type, name⟩]⟩

/-- A complex type whose base, if it has one, is known. -/
def completeType (components : Components) (depth : Nat) (type : ComplexType)
    (base : Lookup EffectiveType) : Lookup EffectiveType :=
  let own := type.content.model?
  let start : EffectiveType :=
    match type.base with
    | .none => { EffectiveType.empty with content := own.getD (.particles []) }
    | some (_, .extension) => { base.result with content := base.result.content.extend own }
    | some (_, .restriction) =>
      ⟨own.getD (.particles []), base.result.attributes, false⟩
  let extended := type.attributes.foldl EffectiveType.addAttribute start
  let full := components.withGroups depth type.attributeGroups
    { extended with anyAttribute := extended.anyAttribute || type.anyAttribute }
  ⟨full.result, base.missing ++ full.missing⟩

/-- The effective form of a type definition. A base beyond the depth counts as empty. -/
def definedType (components : Components) : Nat → TypeDefinition → Lookup EffectiveType
  | _, .simple => ⟨.textOnly, []⟩
  | 0, .complex type => components.completeType 0 type ⟨.empty, []⟩
  | depth + 1, .complex type =>
    components.completeType (depth + 1) type <|
      match type.base with
      | .none => ⟨.empty, []⟩
      | some (name, _) => components.namedType name (components.definedType depth)

/-- The effective type of an element. Without a type of its own it has the type of its head. -/
def typeOf (components : Components) : Nat → ElementDeclaration → Lookup EffectiveType
  | 0, _ => ⟨.any, []⟩
  | depth + 1, declaration =>
    match declaration.type with
    | .named name => components.namedType name (components.definedType referenceDepth)
    | .anonymous definition => components.definedType referenceDepth definition
    | .unspecified =>
      match declaration.substitutes with
      | .none => ⟨.any, []⟩
      | some head =>
        match components.elements.find? head with
        | some declaration => components.typeOf depth declaration
        | .none => ⟨.any, [⟨.element, head⟩]⟩

end Components
end KeyholeMarkup.Schema

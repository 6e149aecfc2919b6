import KeyholeMarkup.Schema.EffectiveType

/-! Which children a content model admits. The first particle that admits the name of a child
decides what the child is checked against. -/
namespace KeyholeMarkup.Schema
open KeyholeMarkup.Xml

inductive Admission
  | declared (declaration : ElementDeclaration)
  | wildcard (strictness : Strictness)
  /-- The content model refers to a component that is missing. -/
  | unresolved (missing : Missing)

namespace Components

/-- What a particle admits a child as, if it does. Nested particles are looked at up to a depth. -/
def admission (components : Components) (child : Name) : Nat → Particle → Option Admission
  | _, .element declaration =>
    if declaration.name = child then some (.declared declaration) else .none
  | _, .reference head =>
    if head = child ∨ components.substitutesFor child head then
      match components.elements.find? child with
      | some declaration => some (.declared declaration)
      | .none => some (.unresolved ⟨.element, child⟩)
    else .none
  | _, .any wildcard =>
    if wildcard.namespaces.allows child.uri then some (.wildcard wildcard.strictness) else .none
  | 0, .compositor _ | 0, .group _ => .none
  | depth + 1, .compositor particles => particles.findSome? (components.admission child depth)
  | depth + 1, .group name =>
    match components.groups.find? name with
    | some particle => components.admission child depth particle
    | .none => some (.unresolved ⟨.group, name⟩)

end Components
end KeyholeMarkup.Schema

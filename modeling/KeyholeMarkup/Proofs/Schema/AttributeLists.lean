import KeyholeMarkup.Proofs.Schema.EffectiveType

/-! The attributes of an effective type. A type that declares an attribute takes it over from its
bases, so however often it is declared it counts once. The attributes of groups are only added, so
each use of a group counts. -/
namespace KeyholeMarkup.Schema
open KeyholeMarkup.Xml

/-- A complex type with the depth up to which its groups are followed. -/
abbrev Link := Nat × ComplexType

namespace Components

/-- The attributes that the named groups bring in, with those of the groups in them. -/
def groupUses (components : Components) : Nat → List Name → List AttributeUse
  | 0, _ => []
  | depth + 1, names => names.flatMap fun name =>
    match components.attributeGroups.find? name with
    | .none => []
    | some group => group.attributes ++ components.groupUses depth group.groups

/-- The types behind a name by those behind its definition. Types without a definition have none. -/
def namedLineage (components : Components) (name : Name) (lineage : TypeDefinition → List Link) :
    List Link :=
  if isBuiltin name then []
  else
    match components.types.find? name with
    | some definition => lineage definition
    | .none => []

/-- Adds the attributes of a group. The step that is repeated for all groups of a type. -/
def withGroup (components : Components) (depth : Nat) (found : Lookup EffectiveType) (name : Name) :
    Lookup EffectiveType :=
  match components.attributeGroups.find? name with
  | .none =>
    ⟨{ found.result with anyAttribute := true }, found.missing ++ [⟨.attributeGroup, name⟩]⟩
  | some group =>
    let inner := components.withGroups depth group.groups (found.result.addGroup group)
    ⟨inner.result, found.missing ++ inner.missing⟩

/-- A complex type with its base, the base of that and so on. -/
def lineage (components : Components) : Nat → TypeDefinition → List Link
  | _, .simple => []
  | 0, .complex type => [(0, type)]
  | depth + 1, .complex type =>
    (depth + 1, type) ::
      match type.base with
      | .none => []
      | some (name, _) => components.namedLineage name (components.lineage depth)

/-- The types that the type of an element is made of. -/
def lineageOf (components : Components) : Nat → ElementDeclaration → List Link
  | 0, _ => []
  | depth + 1, declaration =>
    match declaration.type with
    | .named name => components.namedLineage name (components.lineage referenceDepth)
    | .anonymous definition => components.lineage referenceDepth definition
    | .unspecified =>
      match declaration.substitutes.bind components.elements.find? with
      | some head => components.lineageOf depth head
      | .none => []

/-- How often a type with these links has an attribute: once by the nearest type that declares it,
and by every use in a group up to there. -/
def timesHeld (components : Components) (name : Name) : List Link → Nat
  | [] => 0
  | (depth, type) :: bases =>
    (if type.attributes.any (·.name == name) then 1 else components.timesHeld name bases) +
      (components.groupUses depth type.attributeGroups).countP (·.name == name)

end Components

/-- How often a type has an attribute. -/
def EffectiveType.times (type : EffectiveType) (name : Name) : Nat :=
  type.attributes.countP (·.name == name)

variable {components : Components} (name : Name)

section Groups
variable (depth : Nat) (names : List Name)

theorem withGroups_succ (type : EffectiveType) : components.withGroups (depth + 1) names type =
    names.foldl (components.withGroup depth) ⟨type, []⟩ := rfl

theorem withGroups_attributes (type : EffectiveType) :
    (components.withGroups depth names type).result.attributes =
      type.attributes ++ components.groupUses depth names := by
  induction depth generalizing names type with
  | zero => simp [Components.withGroups, Components.groupUses]
  | succ depth ih =>
    have folded (found : Lookup EffectiveType) :
        (names.foldl (components.withGroup depth) found).result.attributes =
          found.result.attributes ++ components.groupUses (depth + 1) names := by
      induction names generalizing found with
      | nil => simp [Components.groupUses]
      | cons name names ihNames =>
        rw [List.foldl_cons, ihNames, Components.groupUses, Components.groupUses, List.flatMap_cons,
          ← List.append_assoc, Components.withGroup]
        cases components.attributeGroups.find? name with
        | none => simp
        | some group => simp [ih, EffectiveType.addGroup]
    rw [withGroups_succ, folded]

end Groups

/-- An attribute that is added takes the place of all others of its name. -/
theorem times_addAttribute (type : EffectiveType) (entry : AttributeUse) :
    (type.addAttribute entry).times name = if entry.name = name then 1 else type.times name := by
  rw [EffectiveType.times, EffectiveType.addAttribute, List.countP_append, List.countP_filter,
    List.countP_singleton]
  by_cases same : entry.name = name
  · have none_left : ∀ other ∈ type.attributes,
        ¬ (other.name == name && decide (other.name ≠ entry.name)) = true := by
      intro other _
      simp [same]
    rw [List.countP_eq_zero.mpr none_left]
    simp [same]
  · have all_left : ∀ other ∈ type.attributes,
        (other.name == name && decide (other.name ≠ entry.name)) = true ↔ (other.name == name) = true := by
      intro other _
      rw [Bool.and_eq_true, beq_iff_eq, decide_eq_true_eq, and_iff_left_iff_imp]
      rintro rfl
      exact Ne.symm same
    rw [List.countP_congr all_left, EffectiveType.times]
    simp [same]

theorem times_foldl_addAttribute (attributes : List AttributeUse) (type : EffectiveType) :
    (attributes.foldl EffectiveType.addAttribute type).times name =
      if attributes.any (·.name == name) then 1 else type.times name := by
  induction attributes generalizing type with
  | nil => simp
  | cons entry attributes ih =>
    rw [List.foldl_cons, ih, times_addAttribute, List.any_cons]
    by_cases later : attributes.any (·.name == name) <;> by_cases here : entry.name = name
    all_goals simp [later, here]

theorem times_onto (type : ComplexType) (inherited : EffectiveType) :
    (type.onto inherited).times name =
      if type.attributes.any (·.name == name) then 1
      else if type.base = none then 0 else inherited.times name := by
  obtain ⟨base, content, attributes, groups, anyAttribute⟩ := type
  have added (start : EffectiveType) := times_foldl_addAttribute name attributes start
  match base with
  | none => exact added ⟨_, [], false⟩
  | some (_, .extension) => exact added { inherited with content := _ }
  | some (_, .restriction) => exact added ⟨_, inherited.attributes, false⟩

theorem times_completeType (depth : Nat) (type : ComplexType) (base : Lookup EffectiveType) :
    (components.completeType depth type base).result.times name =
      (if type.attributes.any (·.name == name) then 1
        else if type.base = none then 0 else base.result.times name) +
      (components.groupUses depth type.attributeGroups).countP (·.name == name) := by
  rw [completeType_eq, ← times_onto]
  dsimp only
  rw [EffectiveType.times, withGroups_attributes, List.countP_append, EffectiveType.times]

theorem times_namedType (typeName : Name) {resolve : TypeDefinition → Lookup EffectiveType}
    {lineage : TypeDefinition → List Link} (resolved : ∀ definition,
      (resolve definition).result.times name = components.timesHeld name (lineage definition)) :
    (components.namedType typeName resolve).result.times name =
      components.timesHeld name (components.namedLineage typeName lineage) := by
  unfold Components.namedType Components.namedLineage
  by_cases builtin : isBuiltin typeName
  · rw [if_pos builtin, if_pos builtin]
    split <;> rfl
  · have notAny : ¬ isAnyType typeName := by simp [isAnyType, builtin]
    rw [if_neg notAny, if_neg builtin, if_neg builtin]
    cases components.types.find? typeName with
    | none => rfl
    | some definition => exact resolved definition

theorem times_definedType (depth : Nat) (definition : TypeDefinition) :
    (components.definedType depth definition).result.times name =
      components.timesHeld name (components.lineage depth definition) := by
  induction depth generalizing definition with
  | zero =>
    cases definition with
    | simple => rfl
    | complex type =>
      have nothing : EffectiveType.empty.times name = 0 := rfl
      rw [Components.definedType, times_completeType, nothing, ite_self]
      rfl
  | succ depth ih =>
    cases definition with
    | simple => rfl
    | complex type =>
      rw [Components.definedType, times_completeType, Components.lineage, Components.timesHeld]
      cases type.base with
      | none => simp [Components.timesHeld]
      | some base => simp [times_namedType name base.1 ih]

/-- How often the type of an element has an attribute can be told from the types it is derived from. -/
theorem times_typeOf (depth : Nat) (declaration : ElementDeclaration) :
    (components.typeOf depth declaration).result.times name =
      components.timesHeld name (components.lineageOf depth declaration) := by
  induction depth generalizing declaration with
  | zero => rfl
  | succ depth ih =>
    obtain ⟨_, use, head, _⟩ := declaration
    cases use with
    | named type => exact times_namedType name type (times_definedType name referenceDepth)
    | anonymous definition => exact times_definedType name referenceDepth definition
    | unspecified =>
      cases head with
      | none => rfl
      | some head =>
        simp only [Components.typeOf, Components.lineageOf, Option.bind_some]
        cases components.elements.find? head with
        | none => rfl
        | some other => exact ih other

end KeyholeMarkup.Schema

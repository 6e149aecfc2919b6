import KeyholeMarkup.Proofs.Schema.Rules

/-! The types of elements are those of the rules. In components that are complete and shallow the
search up to a depth finds everything, so its result is the one type that the rules give. -/
namespace KeyholeMarkup.Schema
open KeyholeMarkup.Xml

variable {components : Components}

theorem Grouped.content_eq {names : List Name} {type full : EffectiveType}
    (grouped : Grouped components names type full) : full.content = type.content := by
  induction grouped with
  | nil => rfl
  | cons _ _ _ ihInner ihRest => exact ihRest.trans ihInner

theorem Grouped.unique {names : List Name} {type full full' : EffectiveType}
    (grouped : Grouped components names type full) (grouped' : Grouped components names type full') :
    full = full' := by
  induction grouped generalizing full' with
  | nil =>
    cases grouped'
    rfl
  | cons found _ _ ihInner ihRest =>
    cases grouped' with
    | cons found' inner' rest' =>
      obtain rfl := Option.some.inj (found.symm.trans found')
      obtain rfl := ihInner inner'
      exact ihRest rest'

theorem Effective.unique {use : TypeUse} {type type' : EffectiveType}
    (effective : Effective components use type) (effective' : Effective components use type') :
    type = type' := by
  induction effective generalizing type' with
  | anyType any =>
    cases effective' with
    | anyType _ => rfl
    | builtin _ other => simp [any] at other
    | named other _ _ => simp [isAnyType, other] at any
  | builtin plain other =>
    cases effective' with
    | anyType any => simp [any] at other
    | builtin _ _ => rfl
    | named defined _ _ => simp [defined] at plain
  | named defined found _ ih =>
    cases effective' with
    | anyType any => simp [isAnyType, defined] at any
    | builtin plain _ => simp [defined] at plain
    | named _ found' inner' =>
      obtain rfl := Option.some.inj (found.symm.trans found')
      exact ih inner'
  | simple =>
    cases effective'
    rfl
  | underived base grouped =>
    cases effective' with
    | underived _ grouped' => exact grouped.unique grouped'
    | derived base' _ _ => simp [base] at base'
  | derived base _ grouped ih =>
    cases effective' with
    | underived base' _ => simp [base] at base'
    | derived base' inherited' grouped' =>
      rw [base, Option.some.injEq, Prod.mk.injEq] at base'
      obtain ⟨rfl, _⟩ := base'
      obtain rfl := ih inherited'
      exact grouped.unique grouped'

theorem TypeOf.unique {declaration : ElementDeclaration} {type type' : EffectiveType}
    (typeOf : TypeOf components declaration type) (typeOf' : TypeOf components declaration type') :
    type = type' := by
  have own {declaration : ElementDeclaration} {type : EffectiveType}
      (effective : Effective components declaration.type type) : declaration.type ≠ .unspecified := by
    intro none
    rw [none] at effective
    cases effective
  induction typeOf generalizing type' with
  | own effective =>
    cases typeOf' with
    | own effective' => exact effective.unique effective'
    | head none _ _ _ => exact absurd none (own effective)
    | untyped none _ => exact absurd none (own effective)
  | head none head found _ ih =>
    cases typeOf' with
    | own effective' => exact absurd none (own effective')
    | head _ head' found' inner' =>
      obtain rfl := Option.some.inj (head.symm.trans head')
      obtain rfl := Option.some.inj (found.symm.trans found')
      exact ih inner'
    | untyped _ headless => simp [head] at headless
  | untyped none headless =>
    cases typeOf' with
    | own effective' => exact absurd none (own effective')
    | head _ head' _ _ => simp [headless] at head'
    | untyped _ _ => rfl

/-- A lookup that found everything it needed, and its result. -/
structure Lookup.Finds {α : Type} (lookup : Lookup α) (result : α → Prop) : Prop where
  result : result lookup.result
  complete : lookup.missing = []

theorem finds_withGroups (complete : components.Complete) {depth : Nat} {names : List Name}
    (within : components.GroupsWithin depth names)
    (present : ∀ name ∈ names, (components.attributeGroups.find? name).isSome)
    (type : EffectiveType) :
    (components.withGroups depth names type).Finds (Grouped components names type) := by
  induction within generalizing type with
  | @nil depth => cases depth <;> exact ⟨.nil, rfl⟩
  | @cons depth name names _ _ ihInner ihRest =>
    obtain ⟨group, found⟩ := Option.isSome_iff_exists.mp (present name List.mem_cons_self)
    have inner := ihInner group found
      (fun other listed => complete.innerGroup name group other found listed) (type.addGroup group)
    have rest := ihRest (fun other listed => present other (List.mem_cons_of_mem _ listed))
      (components.withGroups depth group.groups (type.addGroup group)).result
    have step : components.withGroups (depth + 1) (name :: names) type =
        components.withGroups (depth + 1) names
          (components.withGroups depth group.groups (type.addGroup group)).result := by
      have nothing := inner.complete
      simp only [Components.withGroups, List.foldl_cons, found]
      rw [EffectiveType.addGroup] at nothing ⊢
      rw [nothing]
      rfl
    rw [step]
    exact ⟨.cons found inner.result rest.result, rest.complete⟩

theorem completeType_eq (depth : Nat) (type : ComplexType) (base : Lookup EffectiveType) :
    components.completeType depth type base =
      ⟨(components.withGroups depth type.attributeGroups (type.onto base.result)).result, base.missing ++
        (components.withGroups depth type.attributeGroups (type.onto base.result)).missing⟩ := by
  unfold Components.completeType ComplexType.onto
  obtain ⟨derived, content, attributes, groups, any⟩ := type
  match derived with
  | none => rfl
  | some (_, .extension) => rfl
  | some (_, .restriction) => rfl

theorem finds_namedType {name : Name} (present : components.HasType name)
    (resolve : TypeDefinition → Lookup EffectiveType)
    (resolved : ∀ definition, isBuiltin name = false → components.types.find? name = some definition →
      (resolve definition).Finds (Effective components (.anonymous definition))) :
    (components.namedType name resolve).Finds (Effective components (.named name)) := by
  unfold Components.namedType
  by_cases any : isAnyType name
  · rw [if_pos any]
    exact ⟨.anyType any, rfl⟩
  rw [if_neg any]
  by_cases builtin : isBuiltin name
  · rw [if_pos builtin]
    exact ⟨.builtin builtin (by simpa using any), rfl⟩
  rw [if_neg builtin]
  rcases present with builtin' | present
  · exact absurd builtin' builtin
  · obtain ⟨definition, found⟩ := Option.isSome_iff_exists.mp present
    have plain : isBuiltin name = false := by simpa using builtin
    have inner := resolved definition plain found
    rw [found]
    exact ⟨.named plain found inner.result, inner.complete⟩

theorem finds_definedType (complete : components.Complete) {depth : Nat}
    {definition : TypeDefinition} (within : components.DefinitionWithin depth definition)
    (occurs : Occurs components (.definition definition)) :
    (components.definedType depth definition).Finds (Effective components (.anonymous definition)) := by
  induction within with
  | @simple depth => cases depth <;> exact ⟨.simple, rfl⟩
  | @underived depth type base groups =>
    have full := finds_withGroups complete groups
      (fun name listed => complete.attributeGroup type name occurs listed) (type.onto .empty)
    have same : components.definedType depth (.complex type) =
        components.completeType depth type ⟨.empty, []⟩ := by
      cases depth with
      | zero => rfl
      | succ depth => simp only [Components.definedType, base]
    rw [same, completeType_eq]
    exact ⟨.underived base full.result, full.complete⟩
  | @derived depth type name derivation base _ groups ih =>
    have inherited := finds_namedType (complete.base type name derivation occurs base)
      (components.definedType depth) fun definition plain found => ih definition plain found (.type found)
    have full := finds_withGroups complete groups
      (fun name listed => complete.attributeGroup type name occurs listed)
      (type.onto (components.namedType name (components.definedType depth)).result)
    simp only [Components.definedType, base]
    rw [completeType_eq]
    refine ⟨.derived base inherited.result full.result, ?_⟩
    rw [inherited.complete, full.complete]
    rfl

/-- The type that is found for an element is the one that the rules give it. -/
theorem finds_typeOf (complete : components.Complete) (shallow : components.Shallow) {depth : Nat}
    {declaration : ElementDeclaration} (within : components.DeclarationWithin depth declaration)
    (occurs : Occurs components (.declaration declaration)) :
    (components.typeOf depth declaration).Finds (TypeOf components declaration) := by
  induction within with
  | @typed depth declaration given =>
    obtain ⟨name, use, head, isAbstract⟩ := declaration
    cases use with
    | unspecified => exact absurd rfl given
    | named type =>
      have effective := finds_namedType (complete.type _ type occurs rfl)
        (components.definedType referenceDepth) fun definition _ found =>
          finds_definedType complete (shallow.definition definition (.type found)) (.type found)
      exact ⟨.own effective.result, effective.complete⟩
    | anonymous definition =>
      have inside : Occurs components (.definition definition) := .anonymous occurs rfl
      have effective := finds_definedType complete (shallow.definition definition inside) inside
      exact ⟨.own effective.result, effective.complete⟩
  | @untyped depth declaration untyped _ ih =>
    obtain ⟨name, use, head, isAbstract⟩ := declaration
    obtain rfl : use = .unspecified := untyped
    cases head with
    | none => exact ⟨.untyped rfl rfl, rfl⟩
    | some head =>
      obtain ⟨other, found⟩ := Option.isSome_iff_exists.mp (complete.head _ head occurs rfl rfl)
      have inner := ih head other rfl found (.element found)
      have same : components.typeOf (depth + 1) ⟨name, .unspecified, some head, isAbstract⟩ =
          components.typeOf depth other := by
        simp only [Components.typeOf, found]
      rw [same]
      exact ⟨.head rfl rfl found inner.result, inner.complete⟩

def foundType (components : Components) (declaration : ElementDeclaration) : EffectiveType :=
  (components.typeOf referenceDepth declaration).result

theorem typeOf_iff (complete : components.Complete) (shallow : components.Shallow)
    {declaration : ElementDeclaration} (occurs : Occurs components (.declaration declaration))
    (type : EffectiveType) :
    TypeOf components declaration type ↔ type = foundType components declaration := by
  have found := finds_typeOf complete shallow (shallow.declaration declaration occurs) occurs
  constructor
  · exact fun other => other.unique found.result
  · rintro rfl
    exact found.result

/-- A content model whose particles are particles of the schema. -/
def EffectiveType.Settled (components : Components) (type : EffectiveType) : Prop :=
  ∀ particles, type.content = .particles particles →
    ∀ particle ∈ particles, Occurs components (.particle particle)

theorem foldl_addAttribute_content (attributes : List AttributeUse) (type : EffectiveType) :
    (attributes.foldl EffectiveType.addAttribute type).content = type.content := by
  induction attributes generalizing type with
  | nil => rfl
  | cons entry attributes ih => exact ih (type.addAttribute entry)

theorem settled_model {type : ComplexType} (occurs : Occurs components (.definition (.complex type)))
    {particles : List Particle} (own : type.content.model? = some (.particles particles)) :
    ∀ particle ∈ particles, Occurs components (.particle particle) := by
  cases content : type.content with
  | empty => simp [content, TypeContent.model?] at own
  | simple => simp [content, TypeContent.model?] at own
  | particle inner =>
    have same : [inner] = particles := by simpa [content, TypeContent.model?] using own
    subst same
    intro particle member
    rw [List.mem_singleton.mp member]
    exact .content occurs content

theorem settled_extend {base : ContentModel} {own : Option ContentModel}
    {particles : List Particle} (extended : base.extend own = .particles particles) :
    ∀ particle ∈ particles, (∃ inherited, base = .particles inherited ∧ particle ∈ inherited) ∨
      ∃ added, own = some (.particles added) ∧ particle ∈ added := by
  cases own with
  | none => exact fun particle member => .inl ⟨particles, extended, member⟩
  | some own =>
    cases base <;> cases own <;> simp only [ContentModel.extend, ContentModel.particles.injEq,
      reduceCtorEq] at extended
    · subst extended
      exact fun particle member => .inr ⟨_, rfl, member⟩
    · subst extended
      intro particle member
      rcases List.mem_append.mp member with inherited | added
      · exact .inl ⟨_, rfl, inherited⟩
      · exact .inr ⟨_, rfl, added⟩

theorem settled_onto {type : ComplexType} (occurs : Occurs components (.definition (.complex type)))
    {inherited : EffectiveType} (settled : inherited.Settled components) :
    (type.onto inherited).Settled components := by
  have alone {particles : List Particle}
      (content : type.content.model?.getD (.particles []) = .particles particles) :
      ∀ particle ∈ particles, Occurs components (.particle particle) := by
    cases own : type.content.model? with
    | none =>
      rw [own, Option.getD_none, ContentModel.particles.injEq] at content
      subst content
      simp
    | some model =>
      rw [own, Option.getD_some] at content
      exact settled_model occurs (own.trans (congrArg some content))
  intro particles content
  unfold ComplexType.onto at content
  simp only [foldl_addAttribute_content] at content
  split at content
  · exact alone content
  · intro particle member
    rcases settled_extend content particle member with ⟨_, same, inside⟩ | ⟨_, same, inside⟩
    · exact settled _ same particle inside
    · exact settled_model occurs same particle inside
  · exact alone content

theorem Effective.settled {use : TypeUse} {type : EffectiveType}
    (effective : Effective components use type)
    (occurs : ∀ definition, use = .anonymous definition → Occurs components (.definition definition)) :
    type.Settled components := by
  induction effective with
  | anyType _ => exact fun _ content => by simp [EffectiveType.any] at content
  | builtin _ _ => exact fun _ content => by simp [EffectiveType.textOnly] at content
  | named _ found _ ih =>
    refine ih fun definition same => ?_
    obtain rfl := TypeUse.anonymous.inj same
    exact .type found
  | simple => exact fun _ content => by simp [EffectiveType.textOnly] at content
  | underived _ grouped =>
    intro particles content
    rw [grouped.content_eq] at content
    refine settled_onto (occurs _ rfl) (fun _ empty => ?_) particles content
    obtain rfl := ContentModel.particles.inj empty
    simp
  | derived _ _ grouped ih =>
    intro particles content
    rw [grouped.content_eq] at content
    exact settled_onto (occurs _ rfl) (ih fun _ same => by simp at same) particles content

theorem TypeOf.settled {declaration : ElementDeclaration} {type : EffectiveType}
    (typeOf : TypeOf components declaration type)
    (occurs : Occurs components (.declaration declaration)) : type.Settled components := by
  induction typeOf with
  | own effective => exact effective.settled fun definition same => .anonymous occurs same
  | head _ _ found _ ih => exact ih (.element found)
  | untyped _ _ => exact fun _ content => by simp [EffectiveType.any] at content

end KeyholeMarkup.Schema

import KeyholeMarkup.Proofs.Schema.Rules

/-! Which children are admitted, and as what. Particles are flattened to their leaves; the first leaf
that is made for a child decides. -/
namespace KeyholeMarkup.Schema
open KeyholeMarkup.Xml

variable {components : Components}

theorem Flattens.append {first second firstLeaves secondLeaves : List Particle}
    (flattens : Flattens components first firstLeaves)
    (flattens' : Flattens components second secondLeaves) :
    Flattens components (first ++ second) (firstLeaves ++ secondLeaves) := by
  induction flattens with
  | nil => exact flattens'
  | element _ ih => exact .element ih
  | reference _ ih => exact .reference ih
  | any _ ih => exact .any ih
  | compositor inner _ _ ih =>
    rw [List.append_assoc]
    exact .compositor inner ih
  | group found inner _ _ ih =>
    rw [List.append_assoc]
    exact .group found inner ih

theorem Flattens.unique {particles leaves leaves' : List Particle}
    (flattens : Flattens components particles leaves)
    (flattens' : Flattens components particles leaves') : leaves = leaves' := by
  induction flattens generalizing leaves' with
  | nil =>
    cases flattens'
    rfl
  | element _ ih =>
    cases flattens' with
    | element rest => rw [ih rest]
  | reference _ ih =>
    cases flattens' with
    | reference rest => rw [ih rest]
  | any _ ih =>
    cases flattens' with
    | any rest => rw [ih rest]
  | compositor _ _ ihInner ihRest =>
    cases flattens' with
    | compositor inner rest => rw [ihInner inner, ihRest rest]
  | group found _ _ ihInner ihRest =>
    cases flattens' with
    | group found' inner rest =>
      obtain rfl := Option.some.inj (found.symm.trans found')
      rw [ihInner inner, ihRest rest]

theorem Flattens.occurs {particles leaves : List Particle}
    (flattens : Flattens components particles leaves)
    (occurs : ∀ particle ∈ particles, Occurs components (.particle particle)) :
    ∀ leaf ∈ leaves, Occurs components (.particle leaf) := by
  induction flattens with
  | nil => simp
  | element _ ih =>
    rw [List.forall_mem_cons] at occurs ⊢
    exact ⟨occurs.1, ih occurs.2⟩
  | reference _ ih =>
    rw [List.forall_mem_cons] at occurs ⊢
    exact ⟨occurs.1, ih occurs.2⟩
  | any _ ih =>
    rw [List.forall_mem_cons] at occurs ⊢
    exact ⟨occurs.1, ih occurs.2⟩
  | compositor _ _ ihInner ihRest =>
    rw [List.forall_mem_cons] at occurs
    rw [List.forall_mem_append]
    exact ⟨ihInner fun particle member => .nested occurs.1 member, ihRest occurs.2⟩
  | group found _ _ ihInner ihRest =>
    rw [List.forall_mem_cons] at occurs
    rw [List.forall_mem_append]
    refine ⟨ihInner fun particle member => ?_, ihRest occurs.2⟩
    rw [List.mem_singleton.mp member]
    exact .group found

/-- A leaf by itself, without anything to follow. -/
def leafAdmission (components : Components) (child : Name) (leaf : Particle) : Option Admission :=
  components.admission child 0 leaf

/-- Particles that have leaves, the first of which decides. -/
def Decides (components : Components) (child : Name) (particles : List Particle)
    (found : Option Admission) : Prop :=
  ∃ leaves, Flattens components particles leaves ∧
    found = leaves.findSome? (leafAdmission components child)

theorem decides_cons {child : Name} {particle : Particle} {particles : List Particle}
    {first rest : Option Admission} (decides : Decides components child [particle] first)
    (decides' : Decides components child particles rest) :
    Decides components child (particle :: particles) (first.or rest) := by
  obtain ⟨leaves, flattens, rfl⟩ := decides
  obtain ⟨leaves', flattens', rfl⟩ := decides'
  exact ⟨leaves ++ leaves', flattens.append flattens', List.findSome?_append.symm⟩

theorem decides_all {child : Name} {depth : Nat} {particles : List Particle}
    (decides : ∀ particle ∈ particles,
      Decides components child [particle] (components.admission child depth particle)) :
    Decides components child particles
      (particles.findSome? (components.admission child depth)) := by
  induction particles with
  | nil => exact ⟨[], .nil, rfl⟩
  | cons particle particles ih =>
    rw [List.forall_mem_cons] at decides
    have step : (particle :: particles).findSome? (components.admission child depth) =
        (components.admission child depth particle).or
          (particles.findSome? (components.admission child depth)) := by
      rw [List.findSome?_cons]
      cases components.admission child depth particle <;> rfl
    rw [step]
    exact decides_cons decides.1 (ih decides.2)

theorem decides_leaf (child : Name) {leaf : Particle} (flattens : Flattens components [leaf] [leaf]) :
    Decides components child [leaf] (leafAdmission components child leaf) := by
  refine ⟨[leaf], flattens, ?_⟩
  rw [List.findSome?_cons]
  cases leafAdmission components child leaf <;> rfl

/-- A particle that is followed to its leaves admits what the first leaf for a child does. -/
theorem decides_admission (complete : components.Complete) (child : Name) {depth : Nat}
    {particle : Particle} (within : components.ParticleWithin depth particle)
    (occurs : Occurs components (.particle particle)) :
    Decides components child [particle] (components.admission child depth particle) := by
  induction within with
  | @element depth declaration => cases depth <;> exact decides_leaf child (.element .nil)
  | @reference depth name => cases depth <;> exact decides_leaf child (.reference .nil)
  | @any depth wildcard => cases depth <;> exact decides_leaf child (.any .nil)
  | @compositor depth particles _ ih =>
    obtain ⟨leaves, flattens, found⟩ := decides_all fun particle member =>
      ih particle member (.nested occurs member)
    refine ⟨leaves, ?_, found⟩
    have whole := Flattens.compositor flattens .nil
    rwa [List.append_nil] at whole
  | @group depth name _ ih =>
    obtain ⟨particle, found⟩ := Option.isSome_iff_exists.mp (complete.group name occurs)
    obtain ⟨leaves, flattens, admitted⟩ := ih particle found (.group found)
    have whole := Flattens.group found flattens .nil
    rw [List.append_nil] at whole
    refine ⟨leaves, whole, ?_⟩
    rw [← admitted]
    simp only [Components.admission, found]

/-- What a child is checked against by the way it is admitted. -/
def Admission.target? : Admission → Option Target
  | .declared declaration => some (.declared declaration)
  | .wildcard .skip => some .skip
  | .wildcard _ => some .lax
  | .unresolved _ => none

theorem leafAdmission_reference (child head : Name) :
    leafAdmission components child (.reference head) =
      if head = child ∨ components.substitutesFor child head then
        match components.elements.find? child with
        | some declaration => some (.declared declaration)
        | none => some (.unresolved ⟨.element, child⟩)
      else none := rfl

theorem leafAdmission_any (child : Name) (wildcard : Wildcard) :
    leafAdmission components child (.any wildcard) =
      if wildcard.namespaces.allows child.uri then some (.wildcard wildcard.strictness) else none := rfl

theorem matches_reference_iff (child head : Name) :
    Matches components child (.reference head) ↔
      head = child ∨ components.substitutesFor child head = true := by
  rw [components.substitutesFor_iff]
  constructor
  · intro matched
    cases matched with
    | same => exact .inl rfl
    | substitute joins => exact .inr joins
  · rintro (rfl | joins)
    · exact .same
    · exact .substitute joins

theorem matches_iff (child : Name) (leaf : Particle) :
    Matches components child leaf ↔ leafAdmission components child leaf ≠ none := by
  cases leaf with
  | element declaration =>
    change _ ↔ (if declaration.name = child then some (Admission.declared declaration) else none) ≠ none
    by_cases same : declaration.name = child
    · simpa [same] using Matches.element same
    · rw [if_neg same]
      refine ⟨fun matched => ?_, fun admitted => absurd rfl admitted⟩
      cases matched with
      | element same' => exact absurd same' same
  | reference head =>
    rw [matches_reference_iff, leafAdmission_reference]
    by_cases allowed : head = child ∨ components.substitutesFor child head = true
    · rw [if_pos allowed]
      refine ⟨fun _ => ?_, fun _ => allowed⟩
      split <;> simp
    · rw [if_neg allowed]
      exact ⟨fun other => absurd other allowed, fun admitted => absurd rfl admitted⟩
  | compositor particles =>
    refine ⟨fun matched => ?_, fun admitted => absurd rfl admitted⟩
    cases matched
  | group name =>
    refine ⟨fun matched => ?_, fun admitted => absurd rfl admitted⟩
    cases matched
  | any wildcard =>
    rw [leafAdmission_any]
    by_cases allowed : wildcard.namespaces.allows child.uri
    · simpa [allowed] using Matches.any allowed
    · rw [if_neg allowed]
      refine ⟨fun matched => ?_, fun admitted => absurd rfl admitted⟩
      cases matched with
      | any allowed' => exact absurd allowed' allowed

theorem demands_iff {child : Name} {leaf : Particle} (matched : Matches components child leaf)
    (target : Target) : Demands components child leaf target ↔
      (leafAdmission components child leaf).bind Admission.target? = some target := by
  cases leaf with
  | element declaration =>
    cases matched with
    | element same =>
      have admitted : leafAdmission components child (.element declaration) =
          some (.declared declaration) := if_pos same
      rw [admitted]
      constructor
      · intro demands
        cases demands
        rfl
      · intro wanted
        obtain rfl := Option.some.inj wanted
        exact .element
  | reference head =>
    rw [matches_reference_iff] at matched
    rw [leafAdmission_reference, if_pos matched]
    constructor
    · intro demands
      cases demands with
      | reference found =>
        rw [found]
        rfl
    · intro wanted
      cases found : components.elements.find? child with
      | none => simp [found, Admission.target?] at wanted
      | some declaration =>
        rw [found] at wanted
        obtain rfl := Option.some.inj wanted
        exact .reference found
  | compositor particles => cases matched
  | group name => cases matched
  | any wildcard =>
    cases matched with
    | any allowed =>
      rw [leafAdmission_any, if_pos allowed]
      obtain ⟨namespaces, strictness⟩ := wildcard
      constructor
      · intro demands
        cases demands with
        | skip skip =>
          obtain rfl : strictness = .skip := skip
          rfl
        | lax other => cases strictness <;> first | rfl | exact absurd rfl other
      · intro wanted
        cases strictness <;> obtain rfl := Option.some.inj wanted
        · exact .lax (by simp)
        · exact .lax (by simp)
        · exact .skip rfl

/-- The first particle for a child, as it is found by the search up to a depth, decides what the
child is checked against. -/
theorem admits_iff (complete : components.Complete) (shallow : components.Shallow)
    {particles : List Particle}
    (occurs : ∀ particle ∈ particles, Occurs components (.particle particle)) (child : Name)
    (target : Target) : Admits components particles child target ↔
      (particles.findSome? (components.admission child referenceDepth)).bind Admission.target? =
        some target := by
  obtain ⟨leaves, flattens, found⟩ := decides_all fun particle member =>
    decides_admission complete child (shallow.particle particle (occurs particle member))
      (occurs particle member)
  rw [found]
  constructor
  · rintro ⟨before, leaf, after, flattens', others, matched, demands⟩
    obtain rfl := flattens.unique flattens'
    have passed : before.findSome? (leafAdmission components child) = none := by
      rw [List.findSome?_eq_none_iff]
      intro other member
      have unmatched := others other member
      rw [matches_iff] at unmatched
      exact Classical.not_not.mp unmatched
    rw [demands_iff matched] at demands
    rw [matches_iff] at matched
    obtain ⟨admission, admitted⟩ := Option.ne_none_iff_exists'.mp matched
    rw [List.findSome?_append, passed, Option.none_or, List.findSome?_cons, admitted]
    rwa [admitted] at demands
  · intro wanted
    obtain ⟨admission, decided, _⟩ := Option.bind_eq_some_iff.mp wanted
    rw [decided] at wanted
    obtain ⟨before, leaf, after, rfl, admitted, others⟩ := List.findSome?_eq_some_iff.mp decided
    have matched : Matches components child leaf := by
      rw [matches_iff, admitted]
      simp
    refine ⟨before, leaf, after, flattens, fun other member => ?_, matched, ?_⟩
    · rw [matches_iff, others other member]
      simp
    · rw [demands_iff matched, admitted]
      exact wanted

theorem Admits.occurs {particles : List Particle} {child : Name} {declaration : ElementDeclaration}
    (admits : Admits components particles child (.declared declaration))
    (occurs : ∀ particle ∈ particles, Occurs components (.particle particle)) :
    Occurs components (.declaration declaration) := by
  obtain ⟨before, leaf, after, flattens, _, _, demands⟩ := admits
  have inside := flattens.occurs occurs leaf (by simp)
  cases demands with
  | element => exact .inPlace inside
  | reference found => exact .element found

end KeyholeMarkup.Schema

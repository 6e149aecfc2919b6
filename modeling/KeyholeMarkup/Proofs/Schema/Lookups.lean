import KeyholeMarkup.Proofs.Schema.AttributeLists
import KeyholeMarkup.Proofs.Schema.Visits

/-! The lookups of a validation. The search for types and for what admits a child is told once more,
with every reference that is followed put on record. It is the same search (`traces_typeOf` and
`traces_admission`), and what is missing are the references on record that lead nowhere. Each of them
is reported once. -/
namespace KeyholeMarkup.Schema
open KeyholeMarkup.Xml

/-- A result with the components that have been looked for on the way, in order. -/
structure Traced (α : Type) where
  result : α
  lookups : List Missing

namespace Traced

instance : Monad Traced where
  pure result := ⟨result, []⟩
  bind first next := ⟨(next first.result).result, first.lookups ++ (next first.result).lookups⟩

variable {α β : Type}

@[simp] theorem result_pure (result : α) : (pure result : Traced α).result = result := rfl

@[simp] theorem lookups_pure (result : α) : (pure result : Traced α).lookups = [] := rfl

@[simp] theorem result_bind (first : Traced α) (next : α → Traced β) :
    (first >>= next).result = (next first.result).result := rfl

@[simp] theorem lookups_bind (first : Traced α) (next : α → Traced β) :
    (first >>= next).lookups = first.lookups ++ (next first.result).lookups := rfl

/-- Looks for a component, which goes on record. -/
def look (kind : ComponentKind) (table : Table α) (name : Name) : Traced (Option α) :=
  ⟨table.find? name, [⟨kind, name⟩]⟩

@[simp] theorem result_look (kind : ComponentKind) (table : Table α) (name : Name) :
    (look kind table name).result = table.find? name := rfl

@[simp] theorem lookups_look (kind : ComponentKind) (table : Table α) (name : Name) :
    (look kind table name).lookups = [⟨kind, name⟩] := rfl

end Traced

namespace Components

def lacks (components : Components) (sought : Missing) : Bool :=
  match sought.kind with
  | .element => (components.elements.find? sought.name).isNone
  | .type => (components.types.find? sought.name).isNone
  | .group => (components.groups.find? sought.name).isNone
  | .attributeGroup => (components.attributeGroups.find? sought.name).isNone

def tracedGroups (components : Components) :
    Nat → List Name → EffectiveType → Traced EffectiveType
  | 0, _, type => pure type
  | depth + 1, names, type =>
    names.foldlM (fun type name => do
      match ← Traced.look .attributeGroup components.attributeGroups name with
      | .none => pure { type with anyAttribute := true }
      | some group => components.tracedGroups depth group.groups (type.addGroup group)) type

def tracedGroup (components : Components) (depth : Nat) (type : EffectiveType) (name : Name) :
    Traced EffectiveType := do
  match ← Traced.look .attributeGroup components.attributeGroups name with
  | .none => pure { type with anyAttribute := true }
  | some group => components.tracedGroups depth group.groups (type.addGroup group)

def tracedNamed (components : Components) (name : Name)
    (resolve : TypeDefinition → Traced EffectiveType) : Traced EffectiveType :=
  if isAnyType name then pure .any
  else if isBuiltin name then pure .textOnly
  else do
    match ← Traced.look .type components.types name with
    | some definition => resolve definition
    | .none => pure .any

def tracedDefinition (components : Components) : Nat → TypeDefinition → Traced EffectiveType
  | _, .simple => pure .textOnly
  | 0, .complex type => components.tracedGroups 0 type.attributeGroups (type.onto .empty)
  | depth + 1, .complex type =>
    (match type.base with
      | .none => pure .empty
      | some (name, _) => components.tracedNamed name (components.tracedDefinition depth)) >>=
    fun base => components.tracedGroups (depth + 1) type.attributeGroups (type.onto base)

def tracedType (components : Components) : Nat → ElementDeclaration → Traced EffectiveType
  | 0, _ => pure .any
  | depth + 1, declaration =>
    match declaration.type with
    | .named name => components.tracedNamed name (components.tracedDefinition referenceDepth)
    | .anonymous definition => components.tracedDefinition referenceDepth definition
    | .unspecified =>
      match declaration.substitutes with
      | .none => pure .any
      | some head => do
        match ← Traced.look .element components.elements head with
        | some declaration => components.tracedType depth declaration
        | .none => pure .any

def tracedAdmission (components : Components) (child : Name) :
    Nat → Particle → Traced (Option Admission)
  | _, .element declaration =>
    pure (if declaration.name = child then some (.declared declaration) else .none)
  | _, .reference head =>
    if head = child ∨ components.substitutesFor child head then do
      match ← Traced.look .element components.elements child with
      | some declaration => pure (some (.declared declaration))
      | .none => pure (some (.unresolved ⟨.element, child⟩))
    else pure .none
  | _, .any wildcard =>
    pure (if wildcard.namespaces.allows child.uri then some (.wildcard wildcard.strictness) else .none)
  | 0, .compositor _ | 0, .group _ => pure .none
  | depth + 1, .compositor particles =>
    particles.findSomeM? (components.tracedAdmission child depth)
  | depth + 1, .group name => do
    match ← Traced.look .group components.groups name with
    | some particle => components.tracedAdmission child depth particle
    | .none => pure (some (.unresolved ⟨.group, name⟩))

/-- The lookups for what admits the children of an element of a type. -/
def childLookups (components : Components) (type : EffectiveType) (element : Element) :
    List Missing :=
  match type.content with
  | .particles particles => element.content.elements.flatMap fun child =>
    (particles.findSomeM? (components.tracedAdmission child.name referenceDepth)).lookups
  | .any | .textOnly => []

end Components

/-- The lookups of the check of an element: for its type, and for what admits its children. -/
def Visit.lookups (components : Components) (visit : Visit) : List Missing :=
  match visit.declaration? components with
  | none => []
  | some declaration =>
    if declaration.isAbstract then []
    else
      let type := components.tracedType referenceDepth declaration
      type.lookups ++ components.childLookups type.result visit.element

/-- The lookups of a validation, in the order in which they are made. -/
def Components.lookupsOf (components : Components) (document : Document) : List Missing :=
  (components.visitsOf document).flatMap (·.lookups components)

variable {components : Components}

/-- A search that finds what its traced form does, and misses what it looks for in vain. -/
structure Traces (components : Components) (traced : Traced EffectiveType)
    (found : Lookup EffectiveType) : Prop where
  result : traced.result = found.result
  missing : traced.lookups.filter components.lacks = found.missing

theorem traces_withGroups (components : Components) (depth : Nat) (names : List Name) (type : EffectiveType) :
    Traces components (components.tracedGroups depth names type)
      (components.withGroups depth names type) := by
  induction depth generalizing names type with
  | zero => exact ⟨rfl, rfl⟩
  | succ depth ih =>
    -- both go on from what has been found so far, the one with what is missing and the other without
    have folded (found : Lookup EffectiveType) :
        (names.foldlM (components.tracedGroup depth) found.result).result =
          (names.foldl (components.withGroup depth) found).result ∧
        found.missing ++
            (names.foldlM (components.tracedGroup depth) found.result).lookups.filter components.lacks =
          (names.foldl (components.withGroup depth) found).missing := by
      induction names generalizing found with
      | nil => exact ⟨rfl, by simp⟩
      | cons name names ihNames =>
        have step : (components.tracedGroup depth found.result name).result =
              (components.withGroup depth found name).result ∧
            found.missing ++
                (components.tracedGroup depth found.result name).lookups.filter components.lacks =
              (components.withGroup depth found name).missing := by
          unfold Components.tracedGroup Components.withGroup
          cases present : components.attributeGroups.find? name with
          | none => simp [Components.lacks, present]
          | some group =>
            have inner := ih group.groups (found.result.addGroup group)
            simp [Components.lacks, present, inner.result, inner.missing]
        have rest := ihNames (components.withGroup depth found name)
        rw [List.foldlM_cons, List.foldl_cons, Traced.result_bind, Traced.lookups_bind,
          List.filter_append, ← List.append_assoc, step.1, step.2]
        exact rest
    exact ⟨(folded ⟨type, []⟩).1, (folded ⟨type, []⟩).2⟩

theorem traces_namedType (name : Name) {traced : TypeDefinition → Traced EffectiveType}
    {resolve : TypeDefinition → Lookup EffectiveType}
    (traces : ∀ definition, Traces components (traced definition) (resolve definition)) :
    Traces components (components.tracedNamed name traced) (components.namedType name resolve) := by
  unfold Components.tracedNamed Components.namedType
  by_cases any : isAnyType name
  · rw [if_pos any, if_pos any]
    exact ⟨rfl, rfl⟩
  rw [if_neg any, if_neg any]
  by_cases builtin : isBuiltin name
  · rw [if_pos builtin, if_pos builtin]
    exact ⟨rfl, rfl⟩
  rw [if_neg builtin, if_neg builtin]
  cases present : components.types.find? name with
  | none => exact ⟨by simp [present], by simp [Components.lacks, present]⟩
  | some definition =>
    have inner := traces definition
    exact ⟨by simp [present, inner.result], by simp [Components.lacks, present, inner.missing]⟩

theorem traces_completeType (depth : Nat) (type : ComplexType) {traced : Traced EffectiveType}
    {base : Lookup EffectiveType} (traces : Traces components traced base) :
    Traces components
      (traced >>= fun base => components.tracedGroups depth type.attributeGroups (type.onto base))
      (components.completeType depth type base) := by
  have full := traces_withGroups components depth type.attributeGroups
    (type.onto base.result)
  rw [completeType_eq]
  refine ⟨?_, ?_⟩
  · rw [Traced.result_bind, traces.result]
    exact full.result
  · rw [Traced.lookups_bind, List.filter_append, traces.missing, traces.result, full.missing]

theorem traces_definedType (components : Components) (depth : Nat) (definition : TypeDefinition) :
    Traces components (components.tracedDefinition depth definition)
      (components.definedType depth definition) := by
  induction depth generalizing definition with
  | zero =>
    cases definition with
    | simple => exact ⟨rfl, rfl⟩
    | complex type =>
      have nothing : Traces components (pure .empty) ⟨.empty, []⟩ := ⟨rfl, rfl⟩
      exact traces_completeType 0 type nothing
  | succ depth ih =>
    cases definition with
    | simple => exact ⟨rfl, rfl⟩
    | complex type =>
      refine traces_completeType (depth + 1) type ?_
      cases type.base with
      | none => exact ⟨rfl, rfl⟩
      | some base => exact traces_namedType base.1 ih

theorem traces_typeOf (components : Components) (depth : Nat) (declaration : ElementDeclaration) :
    Traces components (components.tracedType depth declaration)
      (components.typeOf depth declaration) := by
  induction depth generalizing declaration with
  | zero => exact ⟨rfl, rfl⟩
  | succ depth ih =>
    obtain ⟨_, use, head, _⟩ := declaration
    cases use with
    | named name => exact traces_namedType name (traces_definedType components referenceDepth)
    | anonymous definition => exact traces_definedType components referenceDepth definition
    | unspecified =>
      cases head with
      | none => exact ⟨rfl, rfl⟩
      | some head =>
        simp only [Components.tracedType, Components.typeOf]
        cases present : components.elements.find? head with
        | none => exact ⟨by simp [present], by simp [Components.lacks, present]⟩
        | some other =>
          have inner := ih other
          exact ⟨by simp [present, inner.result], by simp [Components.lacks, present, inner.missing]⟩

/-- The missing component that keeps a child from being admitted, if there is one. -/
def Admission.missing? : Option Admission → Option Missing
  | some (.unresolved missing) => some missing
  | _ => none

/-- A search for what admits a child that finds what its traced form does. It goes on until something
is found, so only the last of its lookups can be in vain. -/
structure TracesAdmission (components : Components) (traced : Traced (Option Admission))
    (found : Option Admission) : Prop where
  result : traced.result = found
  missing : traced.lookups.filter components.lacks = (Admission.missing? found).toList

theorem TracesAdmission.pure {found : Option Admission} (present : Admission.missing? found = none) :
    TracesAdmission components (Pure.pure found) found := by
  refine ⟨rfl, ?_⟩
  rw [present]
  rfl

theorem traces_findSome? {particles : List Particle} {traced : Particle → Traced (Option Admission)}
    {admission : Particle → Option Admission}
    (traces : ∀ particle ∈ particles, TracesAdmission components (traced particle) (admission particle)) :
    TracesAdmission components (particles.findSomeM? traced) (particles.findSome? admission) := by
  induction particles with
  | nil => exact ⟨rfl, rfl⟩
  | cons particle particles ih =>
    obtain ⟨first, others⟩ := List.forall_mem_cons.mp traces
    have rest := ih others
    rw [List.findSomeM?, List.findSome?_cons]
    cases admitted : admission particle with
    | none =>
      rw [admitted] at first
      refine ⟨?_, ?_⟩
      · rw [Traced.result_bind, first.result]
        exact rest.result
      · rw [Traced.lookups_bind, first.result, List.filter_append, first.missing]
        exact rest.missing
    | some admission =>
      rw [admitted] at first
      refine ⟨?_, ?_⟩
      · rw [Traced.result_bind, first.result]
        rfl
      · rw [Traced.lookups_bind, first.result, List.filter_append, first.missing]
        exact List.append_nil _

theorem traces_element (child : Name) (depth : Nat) (declaration : ElementDeclaration) :
    TracesAdmission components (components.tracedAdmission child depth (.element declaration))
      (components.admission child depth (.element declaration)) := by
  simp only [Components.tracedAdmission, Components.admission]
  exact .pure (by split <;> rfl)

theorem traces_any (child : Name) (depth : Nat) (wildcard : Wildcard) :
    TracesAdmission components (components.tracedAdmission child depth (.any wildcard))
      (components.admission child depth (.any wildcard)) := by
  simp only [Components.tracedAdmission, Components.admission]
  exact .pure (by split <;> rfl)

theorem traces_reference (child : Name) (depth : Nat) (head : Name) :
    TracesAdmission components (components.tracedAdmission child depth (.reference head))
      (components.admission child depth (.reference head)) := by
  simp only [Components.tracedAdmission, Components.admission]
  split
  · cases present : components.elements.find? child with
    | none => exact ⟨by simp [present], by simp [present, Components.lacks, Admission.missing?]⟩
    | some declaration =>
      exact ⟨by simp [present], by simp [present, Components.lacks, Admission.missing?]⟩
  · exact .pure rfl

theorem traces_admission (components : Components) (child : Name) (depth : Nat) (particle : Particle) :
    TracesAdmission components (components.tracedAdmission child depth particle)
      (components.admission child depth particle) := by
  induction depth generalizing particle with
  | zero =>
    cases particle with
    | element declaration => exact traces_element child 0 declaration
    | reference head => exact traces_reference child 0 head
    | any wildcard => exact traces_any child 0 wildcard
    | compositor particles => exact ⟨rfl, rfl⟩
    | group name => exact ⟨rfl, rfl⟩
  | succ depth ih =>
    cases particle with
    | element declaration => exact traces_element child _ declaration
    | reference head => exact traces_reference child _ head
    | any wildcard => exact traces_any child _ wildcard
    | compositor particles => exact traces_findSome? fun particle _ => ih particle
    | group name =>
      simp only [Components.tracedAdmission, Components.admission]
      cases present : components.groups.find? name with
      | none => exact ⟨by simp [present], by simp [present, Components.lacks, Admission.missing?]⟩
      | some particle =>
        have inner := ih particle
        exact ⟨by simp [present, inner.result], by simp [present, Components.lacks, inner.missing]⟩

/-- The missing component that an issue reports, if it reports one. -/
def Issue.unresolved? (issue : Issue) : Option Violation :=
  if issue.violation.isUnresolved then some issue.violation else none

namespace Visit
variable {visit : Visit}

theorem unresolved_childIssues (type : EffectiveType) :
    (components.childIssues type visit).filterMap Issue.unresolved? =
      ((components.childLookups type visit.element).filter components.lacks).map
        Violation.ofMissing := by
  unfold Components.childIssues Components.childLookups
  cases type.content with
  | any => rfl
  | textOnly => cases visit.element.content.elements.head? <;> rfl
  | particles particles =>
    have child (held : Element) (path childPath : String) :
        (components.assessChild particles visit.element path held childPath).1.filterMap
            Issue.unresolved? =
          ((particles.findSomeM? (components.tracedAdmission held.name referenceDepth)).lookups.filter
            components.lacks).map Violation.ofMissing := by
      have traces := traces_findSome? fun particle (_ : particle ∈ particles) =>
        traces_admission components held.name referenceDepth particle
      rw [traces.missing]
      unfold Components.assessChild
      split <;> rename_i admitted <;> rw [admitted] <;> rfl
    simp only [List.filterMap_flatMap, child, List.filter_flatMap, List.map_flatMap]
    rw [← visit.map_fst_children, List.flatMap_map]

/-- Of the lookups of a check those that are in vain are reported, in their order. -/
theorem unresolved_issues (visit : Visit) :
    (visit.issues components).filterMap Issue.unresolved? =
      ((visit.lookups components).filter components.lacks).map Violation.ofMissing := by
  unfold lookups
  cases declared : visit.declaration? components with
  | none =>
    rw [issues_undeclared declared]
    rfl
  | some declaration =>
    cases concrete : declaration.isAbstract with
    | true =>
      simp only [issues_abstract declared concrete, concrete, if_true]
      rfl
    | false =>
      have type := traces_typeOf components referenceDepth declaration
      have reports (missing : List Missing) :
          (missing.map (Components.missingIssue visit.path)).filterMap Issue.unresolved? =
            missing.map Violation.ofMissing := by
        rw [List.filterMap_map]
        exact congrFun (List.filterMap_eq_map (f := Violation.ofMissing)) missing
      have silent : (Components.attributeIssues (foundType components declaration) visit.element
          visit.path).filterMap Issue.unresolved? = [] := by
        refine List.filterMap_eq_nil_iff.mpr fun issue member => ?_
        rw [Issue.unresolved?, (own_of_mem_attributeIssues member).1]
        rfl
      rw [issues_concrete declared concrete, List.filterMap_append, List.filterMap_append, silent,
        reports, unresolved_childIssues, ← type.missing, List.append_nil]
      simp only [concrete, Bool.false_eq_true, if_false, List.filter_append, List.map_append,
        type.result]
      rfl

end Visit

theorem unresolved?_eq_some_iff {issue : Issue} {kind : ComponentKind} {shown : String} :
    issue.unresolved? = some (.unresolved kind shown) ↔ issue.violation = .unresolved kind shown := by
  rw [Issue.unresolved?]
  split
  · exact Option.some_inj
  · rename_i resolved
    refine iff_of_false (by simp) fun same => resolved ?_
    rw [same]
    rfl

/-- What is reported as missing are the components that are looked for in vain. -/
theorem exists_unresolved_iff {document : Document} {kind : ComponentKind} {shown : String} :
    (∃ issue ∈ components.issues document, issue.violation = .unresolved kind shown) ↔
      ∃ sought ∈ components.lookupsOf document, components.lacks sought = true ∧
        sought.kind = kind ∧ sought.name.clark = shown := by
  cases found : components.elements.find? document.root.name with
  | none => simp [Components.issues, Components.lookupsOf, Components.visitsOf, found]
  | some declaration =>
    have all : ((components.visitsOf document).flatMap (·.issues components)).filterMap
        Issue.unresolved? =
          ((components.lookupsOf document).filter components.lacks).map Violation.ofMissing := by
      simp only [Components.lookupsOf, List.filterMap_flatMap, Visit.unresolved_issues,
        List.filter_flatMap, List.map_flatMap]
    have member := congrArg (Violation.unresolved kind shown ∈ ·) all
    simp only [List.mem_filterMap, unresolved?_eq_some_iff, List.mem_map, List.mem_filter,
      and_assoc] at member
    have first : (∃ issue ∈ components.issues document,
        issue.violation = .unresolved kind shown) ↔
          ∃ issue ∈ (components.visitsOf document).flatMap (·.issues components),
            issue.violation = .unresolved kind shown := by
      rw [issues_eq document found]
      constructor
      · rintro ⟨issue, reported, same⟩
        exact ⟨issue, firstReports_subset [] reported, same⟩
      · rintro ⟨issue, raised, same⟩
        have fresh : issue.violation.isUnresolved = true → issue.violation ∉ [] :=
          fun _ => List.not_mem_nil
        obtain ⟨report, reported, alike⟩ := exists_mem_firstReports raised fresh
        exact ⟨report, reported, alike.trans same⟩
    rw [first, member]
    simp only [Violation.ofMissing, Violation.unresolved.injEq]

/-- Every component that is looked for in vain is reported once, and nothing else is reported as
missing, so the document is not valid if any lookup is in vain. -/
theorem unresolved_reported_once (components : Components) (document : Document) :
    (∀ kind shown, ((components.issues document).map (·.violation)).count (.unresolved kind shown) ≤ 1) ∧
    (∀ kind shown, (∃ issue ∈ components.issues document, issue.violation = .unresolved kind shown) ↔
      ∃ sought ∈ components.lookupsOf document, components.lacks sought = true ∧
        sought.kind = kind ∧ sought.name.clark = shown) ∧
    (components.issues document = [] →
      ∀ sought ∈ components.lookupsOf document, components.lacks sought = false) := by
  refine ⟨fun kind shown => ?_, fun _ _ => exists_unresolved_iff, fun valid sought member => ?_⟩
  · have apart : (components.issues document).Pairwise fun first second =>
        first.violation.isUnresolved = true → first.violation ≠ second.violation := by
      cases found : components.elements.find? document.root.name with
      | none =>
        simp only [Components.issues, found]
        exact List.pairwise_singleton _ _
      | some declaration =>
        rw [issues_eq document found]
        exact pairwise_firstReports
    have distinct : (((components.issues document).map (·.violation)).filter
        Violation.isUnresolved).Nodup := by
      rw [List.Nodup, List.pairwise_filter, List.pairwise_map]
      exact apart.imp fun different unresolved _ => different unresolved
    rw [← List.count_filter (p := Violation.isUnresolved) rfl]
    exact List.nodup_iff_count_le_one.mp distinct _
  · cases missing : components.lacks sought with
    | false => rfl
    | true =>
      obtain ⟨issue, inside, -⟩ := exists_unresolved_iff.mpr ⟨sought, member, missing, rfl, rfl⟩
      rw [valid] at inside
      cases inside

/-- A schema for a root with items of a type that is missing. -/
def untypedItems : Components where
  elements := [(.plain "root", ⟨.plain "root", .anonymous (.complex ⟨none,
    .particle (.element ⟨.plain "item", .named (.plain "Item"), none, false⟩), [], [], false⟩),
    none, false⟩)]
  types := []
  groups := []
  attributeGroups := []
  substitutions := []

/-- The type is looked for once more for the second item and not reported once more. -/
example :
    let item : Tag := ⟨.plain "item", none, [], [], none, none⟩
    let document : Document := ⟨[], ⟨⟨.plain "root", none, [], [], none, none⟩,
      .element item .empty (.element item .empty .empty)⟩, []⟩
    untypedItems.lookupsOf document = [⟨.type, .plain "Item"⟩, ⟨.type, .plain "Item"⟩] ∧
      untypedItems.issues document = [⟨.unresolved .type "Item", "/root/item[1]", none⟩] := by
  decide

end KeyholeMarkup.Schema

import KeyholeMarkup.Proofs.Schema.Admission
import KeyholeMarkup.Proofs.Schema.EffectiveType

/-! The validator accepts what the rules describe. One element is compared with the rules for its
target; the visit of a document follows by induction on its content. -/
namespace KeyholeMarkup.Schema
open KeyholeMarkup.Xml

variable {components : Components}

def Target.Occurs (components : Components) : Target → Prop
  | .declared declaration => Schema.Occurs components (.declaration declaration)
  | _ => True

theorem attributesFit_iff (type : EffectiveType) (element : Element) (path : String)
    (closed : type.content ≠ .any) :
    Components.attributeIssues type element path = [] ↔ AttributesFit type element := by
  have issues : Components.attributeIssues type element path =
      Components.missingAttributes type element path ++
        if type.anyAttribute then [] else Components.undeclaredAttributes type element path := by
    unfold Components.attributeIssues
    split
    · exact absurd ‹_› closed
    · rfl
  have missing : Components.missingAttributes type element path = [] ↔
      ∀ entry ∈ type.attributes, entry.required →
        ∃ given ∈ element.tag.attributes, given.name = entry.name := by
    simp [Components.missingAttributes, Element.attributeNamed?]
  have undeclared : Components.undeclaredAttributes type element path = [] ↔
      ∀ given ∈ element.tag.attributes, (∃ entry ∈ type.attributes, entry.name = given.name) ∨
        (given.name.uri ≠ none ∧ given.name.uri ≠ element.name.uri) := by
    unfold Components.undeclaredAttributes
    rw [List.map_eq_nil_iff, List.filter_eq_nil_iff]
    refine forall_congr' fun given => imp_congr_right fun _ => ?_
    have declared : type.attributes.any (·.name == given.name) = true ↔
        ∃ entry ∈ type.attributes, entry.name = given.name := by simp
    have foreign : (given.name.uri.isSome && given.name.uri != element.name.uri) = true ↔
        given.name.uri ≠ none ∧ given.name.uri ≠ element.name.uri := by
      simp [Option.isSome_iff_ne_none]
    rw [← declared, ← foreign]
    cases type.attributes.any (·.name == given.name) <;>
      cases given.name.uri.isSome && given.name.uri != element.name.uri <;> simp
  rw [issues, List.append_eq_nil_iff, missing]
  constructor
  · rintro ⟨required, allowed⟩
    refine ⟨required, fun given member => ?_⟩
    by_cases any : type.anyAttribute
    · exact .inr (.inr any)
    · rw [if_neg any, undeclared] at allowed
      exact (allowed given member).imp_right .inl
  · rintro ⟨required, allowed⟩
    refine ⟨required, ?_⟩
    by_cases any : type.anyAttribute
    · rw [if_pos any]
    · rw [if_neg any, undeclared]
      intro given member
      rcases allowed given member with declared | foreign | any'
      · exact .inl declared
      · exact .inr foreign
      · exact absurd any' any

theorem length_stepsFrom (totals seen : Table Nat) (names : List Name) :
    (stepsFrom totals seen names).length = names.length := by
  induction names generalizing seen with
  | nil => rfl
  | cons name names ih => simp [stepsFrom, ih]

theorem length_childPaths (path : String) (names : List Name) :
    (childPaths path names).length = names.length := by
  simp [childPaths, length_stepsFrom]

/-- What a child that some particles admit is checked against. -/
def wanted (components : Components) (particles : List Particle) (child : Name) : Option Target :=
  (particles.findSome? (components.admission child referenceDepth)).bind Admission.target?

theorem assessChild_iff (particles : List Particle) (element child : Element) (path childPath : String) :
    ((components.assessChild particles element path child childPath).1 = [] ↔
      (wanted components particles child.name).isSome) ∧
    (components.assessChild particles element path child childPath).2 =
      (wanted components particles child.name).getD .skip := by
  unfold Components.assessChild wanted
  cases found : particles.findSome? (components.admission child.name referenceDepth) with
  | none => exact ⟨by simp, rfl⟩
  | some admission =>
    cases admission with
    | declared declaration => exact ⟨by simp [Admission.target?], rfl⟩
    | wildcard strictness => cases strictness <;> exact ⟨by simp [Admission.target?], rfl⟩
    | unresolved missing => exact ⟨by simp [Admission.target?], rfl⟩

theorem assessChildren_iff (particles : List Particle) (element : Element) (path : String)
    {children : List Element} {paths : List String} (length : children.length = paths.length) :
    (((children.zip paths).map fun (child, childPath) =>
        components.assessChild particles element path child childPath).flatMap (·.1) = [] ↔
      ∀ child ∈ children, (wanted components particles child.name).isSome) ∧
    ((children.zip paths).map fun (child, childPath) =>
        components.assessChild particles element path child childPath).map (·.2) =
      children.map fun child => (wanted components particles child.name).getD .skip := by
  induction children generalizing paths with
  | nil => simp
  | cons child children ih =>
    cases paths with
    | nil => simp at length
    | cons childPath paths =>
      obtain ⟨issues, targets⟩ := ih (Nat.succ.inj length)
      have first := @assessChild_iff components particles element child path childPath
      rw [List.zip_cons_cons, List.map_cons, List.flatMap_cons, List.append_eq_nil_iff, issues,
        first.1, List.forall_mem_cons, List.map_cons, targets, first.2, List.map_cons]
      exact ⟨Iff.rfl, rfl⟩

/-- A visit of the content of an element that agrees with the rules for the children. -/
def Agrees (components : Components) (element : Element) (path : String) : Prop :=
  ∀ target : Element → Target, (∀ child ∈ element.content.elements, (target child).Occurs components) →
    (components.visit ((element.content.elements.map target).zip
        (childPaths path (element.content.elements.map (·.name)))) element.content = [] ↔
      ∀ child ∈ element.content.elements, Meets components (target child) child)

/-- An element without issues, nor any in its content. -/
def Passes (components : Components) (assessed : List Issue × List Target) (element : Element)
    (path : String) : Prop :=
  assessed.1 = [] ∧ components.visit
    (assessed.2.zip (childPaths path (element.content.elements.map (·.name)))) element.content = []

theorem meets_globalTarget_iff (child : Element) :
    Meets components (components.globalTarget child.name) child ↔ Meets components .lax child := by
  unfold Components.globalTarget
  cases found : components.elements.find? child.name with
  | none => rfl
  | some declaration =>
    constructor
    · exact .global found
    · intro meets
      cases meets with
      | global found' inner =>
        obtain rfl := Option.some.inj (found.symm.trans found')
        exact inner
      | unknown missing _ => simp [found] at missing

theorem occurs_globalTarget (name : Name) : (components.globalTarget name).Occurs components := by
  unfold Components.globalTarget
  cases found : components.elements.find? name with
  | none => trivial
  | some declaration => exact .element found

theorem occurs_wanted (complete : components.Complete) (shallow : components.Shallow)
    {particles : List Particle}
    (settled : ∀ particle ∈ particles, Occurs components (.particle particle)) (child : Name) :
    ((wanted components particles child).getD .skip).Occurs components := by
  cases found : wanted components particles child with
  | none => trivial
  | some target =>
    have admits := (admits_iff complete shallow settled child target).mpr found
    cases target with
    | declared declaration => exact admits.occurs settled
    | lax => trivial
    | skip => trivial

/-- What an element of a type has to be like, by the content of the type. -/
def Fulfils (components : Components) (type : EffectiveType) (element : Element) : Prop :=
  match type.content with
  | .any => ∀ child ∈ element.content.elements, Meets components .lax child
  | .textOnly => AttributesFit type element ∧ element.content.elements = []
  | .particles particles => AttributesFit type element ∧ ∃ targets : Name → Target,
    (∀ child ∈ element.content.elements,
      Admits components particles child.name (targets child.name)) ∧
    ∀ child ∈ element.content.elements, Meets components (targets child.name) child

section Declared
variable (complete : components.Complete) (shallow : components.Shallow)
  {declaration : ElementDeclaration} (occurs : Occurs components (.declaration declaration))
  {element : Element} {path : String}
include complete shallow occurs

theorem missing_eq_nil : (components.typeOf referenceDepth declaration).missing = [] :=
  (finds_typeOf complete shallow (shallow.declaration declaration occurs) occurs).complete

theorem typeOf_foundType : TypeOf components declaration (foundType components declaration) :=
  (typeOf_iff complete shallow occurs _).mpr rfl

/-- The type of an element is known, so there is one way to meet a declaration. -/
theorem meets_declared_iff :
    Meets components (.declared declaration) element ↔ declaration.isAbstract = false ∧
      Fulfils components (foundType components declaration) element := by
  have unique := typeOf_iff complete shallow occurs
  have typeOf := typeOf_foundType complete shallow occurs
  unfold Fulfils
  constructor
  · intro meets
    cases meets with
    | any concrete typed content children =>
      obtain rfl := (unique _).mp typed
      rw [content]
      exact ⟨concrete, children⟩
    | textOnly concrete typed content fits childless =>
      obtain rfl := (unique _).mp typed
      rw [content]
      exact ⟨concrete, fits, childless⟩
    | particles wants concrete typed content fits admitted children =>
      obtain rfl := (unique _).mp typed
      rw [content]
      exact ⟨concrete, fits, wants, admitted, children⟩
  · rintro ⟨concrete, fulfilled⟩
    cases content : (foundType components declaration).content with
    | any =>
      rw [content] at fulfilled
      exact .any concrete typeOf content fulfilled
    | textOnly =>
      rw [content] at fulfilled
      exact .textOnly concrete typeOf content fulfilled.1 fulfilled.2
    | particles particles =>
      rw [content] at fulfilled
      obtain ⟨fits, wants, admitted, children⟩ := fulfilled
      exact .particles wants concrete typeOf content fits admitted children

theorem passes_any_iff (concrete : declaration.isAbstract = false)
    (content : (foundType components declaration).content = .any)
    (agrees : Agrees components element path) :
    Passes components (components.assessDeclared declaration element path) element path ↔
      Meets components (.declared declaration) element := by
  have nothing := missing_eq_nil complete shallow occurs
  have meets : Meets components (.declared declaration) element ↔
      ∀ child ∈ element.content.elements, Meets components .lax child := by
    rw [meets_declared_iff complete shallow occurs, Fulfils, content]
    exact and_iff_right concrete
  have assessed : components.assessDeclared declaration element path =
      ([], element.content.elements.map fun child => components.globalTarget child.name) := by
    rw [foundType] at content
    simp only [Components.assessDeclared, concrete, Bool.false_eq_true, if_false, nothing, content,
      Components.attributeIssues, List.map_nil, List.append_nil]
  rw [meets, assessed, Passes, agrees _ fun child _ => occurs_globalTarget child.name]
  simp only [meets_globalTarget_iff, true_and]

theorem passes_textOnly_iff (concrete : declaration.isAbstract = false)
    (content : (foundType components declaration).content = .textOnly)
    (agrees : Agrees components element path) :
    Passes components (components.assessDeclared declaration element path) element path ↔
      Meets components (.declared declaration) element := by
  have nothing := missing_eq_nil complete shallow occurs
  have fit := attributesFit_iff (foundType components declaration) element path (by simp [content])
  have meets : Meets components (.declared declaration) element ↔
      AttributesFit (foundType components declaration) element ∧ element.content.elements = [] := by
    rw [meets_declared_iff complete shallow occurs, Fulfils, content]
    exact and_iff_right concrete
  have assessed : components.assessDeclared declaration element path =
      (Components.attributeIssues (foundType components declaration) element path ++
        element.content.elements.head?.toList.map fun child =>
          ⟨.childInTextOnly element.name.localName child.name.localName, path, child.tag.span⟩,
        []) := by
    rw [foundType] at content ⊢
    simp only [Components.assessDeclared, concrete, Bool.false_eq_true, if_false, nothing, content,
      List.map_nil, List.nil_append]
  have childless : element.content.elements = [] →
      components.visit (([] : List Target).zip
        (childPaths path (element.content.elements.map (·.name)))) element.content = [] := by
    intro none
    have visited := agrees (fun _ => .skip) fun _ _ => trivial
    rw [none] at visited ⊢
    exact visited.mpr (by simp)
  rw [meets, assessed, Passes, List.append_eq_nil_iff, fit]
  constructor
  · rintro ⟨⟨fits, none⟩, _⟩
    exact ⟨fits, by simpa using none⟩
  · rintro ⟨fits, none⟩
    exact ⟨⟨fits, by simp [none]⟩, childless none⟩

theorem passes_particles_iff (concrete : declaration.isAbstract = false) {particles : List Particle}
    (content : (foundType components declaration).content = .particles particles)
    (agrees : Agrees components element path) :
    Passes components (components.assessDeclared declaration element path) element path ↔
      Meets components (.declared declaration) element := by
  have nothing := missing_eq_nil complete shallow occurs
  have inside := (typeOf_foundType complete shallow occurs).settled occurs particles content
  have fit := attributesFit_iff (foundType components declaration) element path (by simp [content])
  have lengths : element.content.elements.length =
      (childPaths path (element.content.elements.map (·.name))).length := by
    rw [length_childPaths, List.length_map]
  obtain ⟨issues, targets⟩ := @assessChildren_iff components particles element path _ _ lengths
  have admits (child : Name) (target : Target) :
      Admits components particles child target ↔ wanted components particles child = some target :=
    admits_iff complete shallow inside child target
  have meets : Meets components (.declared declaration) element ↔
      AttributesFit (foundType components declaration) element ∧ ∃ targets : Name → Target,
        (∀ child ∈ element.content.elements,
          Admits components particles child.name (targets child.name)) ∧
        ∀ child ∈ element.content.elements, Meets components (targets child.name) child := by
    rw [meets_declared_iff complete shallow occurs, Fulfils, content]
    exact and_iff_right concrete
  have assessed : components.assessDeclared declaration element path =
      (Components.attributeIssues (foundType components declaration) element path ++
        ((element.content.elements.zip
          (childPaths path (element.content.elements.map (·.name)))).map fun (child, childPath) =>
            components.assessChild particles element path child childPath).flatMap (·.1),
        element.content.elements.map fun child =>
          (wanted components particles child.name).getD .skip) := by
    rw [← targets]
    rw [foundType] at content ⊢
    simp only [Components.assessDeclared, concrete, Bool.false_eq_true, if_false, nothing, content,
      List.map_nil, List.nil_append]
  rw [meets, assessed, Passes, List.append_eq_nil_iff, fit, issues, and_assoc,
    agrees (fun child => (wanted components particles child.name).getD .skip)
      fun child _ => occurs_wanted complete shallow inside child.name]
  refine and_congr_right fun _ => ⟨?_, ?_⟩
  · rintro ⟨admitted, children⟩
    refine ⟨fun name => (wanted components particles name).getD .skip, fun child member => ?_,
      children⟩
    obtain ⟨target, found⟩ := Option.isSome_iff_exists.mp (admitted child member)
    rw [admits]
    simp only [found, Option.getD_some]
  · rintro ⟨wants, admitted, children⟩
    have found (child : Element) (member : child ∈ element.content.elements) :
        wanted components particles child.name = some (wants child.name) :=
      (admits _ _).mp (admitted child member)
    refine ⟨fun child member => ?_, fun child member => ?_⟩
    · rw [found child member]
      rfl
    · rw [found child member]
      exact children child member

/-- An element is without issues, with all in it, exactly if it meets its declaration. -/
theorem passes_declared_iff (agrees : Agrees components element path) :
    Passes components (components.assessDeclared declaration element path) element path ↔
      Meets components (.declared declaration) element := by
  cases concrete : declaration.isAbstract with
  | true =>
    constructor
    · rintro ⟨none, _⟩
      simp [Components.assessDeclared, concrete] at none
    · intro meets
      have concrete' := ((meets_declared_iff complete shallow occurs).mp meets).1
      exact absurd (concrete.symm.trans concrete') (by decide)
  | false =>
    cases content : (foundType components declaration).content with
    | any => exact passes_any_iff complete shallow occurs concrete content agrees
    | textOnly => exact passes_textOnly_iff complete shallow occurs concrete content agrees
    | particles _ => exact passes_particles_iff complete shallow occurs concrete content agrees

end Declared

theorem visit_nil (content : Content) : components.visit [] content = [] := by
  induction content with
  | empty => rfl
  | comment _ _ ih => exact ih
  | element _ _ _ _ _ => rfl

theorem passes_iff (complete : components.Complete) (shallow : components.Shallow) {target : Target}
    (occurs : target.Occurs components) {element : Element} {path : String}
    (agrees : Agrees components element path) :
    Passes components (components.assess target element path) element path ↔
      Meets components target element := by
  cases target with
  | declared declaration => exact passes_declared_iff complete shallow occurs agrees
  | skip =>
    exact ⟨fun _ => .skip, fun _ => ⟨rfl, visit_nil element.content⟩⟩
  | lax =>
    cases found : components.elements.find? element.name with
    | some declaration =>
      have inner := passes_declared_iff complete shallow (Occurs.element found) agrees
      simp only [Components.assess, found]
      rw [inner]
      constructor
      · exact .global found
      · intro meets
        cases meets with
        | global found' inner =>
          obtain rfl := Option.some.inj (found.symm.trans found')
          exact inner
        | unknown missing _ => simp [found] at missing
    | none =>
      simp only [Components.assess, found]
      rw [Passes, agrees (fun _ => .lax) fun _ _ => trivial]
      constructor
      · rintro ⟨_, children⟩
        exact .unknown found children
      · intro meets
        cases meets with
        | global found' _ => simp [found] at found'
        | unknown _ children => exact ⟨rfl, children⟩

theorem forall_mem_zip_zip {children : List Element} {paths : List String}
    (length : children.length = paths.length) (target : Element → Target)
    (property : Target → Element → Prop) :
    (∀ pair ∈ ((children.map target).zip paths).zip children, property pair.1.1 pair.2) ↔
      ∀ child ∈ children, property (target child) child := by
  induction children generalizing paths with
  | nil => simp
  | cons child children ih =>
    cases paths with
    | nil => simp at length
    | cons path paths =>
      rw [List.map_cons, List.zip_cons_cons, List.zip_cons_cons, List.forall_mem_cons,
        List.forall_mem_cons, ih (Nat.succ.inj length)]

/-- A visit finds nothing exactly if all elements meet their targets. -/
theorem visit_eq_nil_iff (complete : components.Complete) (shallow : components.Shallow)
    (targets : List (Target × String)) (content : Content)
    (occurs : ∀ target ∈ targets, target.1.Occurs components)
    (length : targets.length = content.elements.length) :
    components.visit targets content = [] ↔
      ∀ pair ∈ targets.zip content.elements, Meets components pair.1.1 pair.2 := by
  induction content generalizing targets with
  | empty => cases targets <;> simp [Components.visit, Content.elements]
  | comment comment rest ih => exact ih targets occurs length
  | element tag inner rest ihInner ihRest =>
    cases targets with
    | nil => simp [Content.elements] at length
    | cons first targets =>
      obtain ⟨target, path⟩ := first
      rw [List.forall_mem_cons] at occurs
      have agrees : Agrees components ⟨tag, inner⟩ path := by
        intro target known
        have lengths : inner.elements.length = (childPaths path (inner.elements.map (·.name))).length := by
          rw [length_childPaths, List.length_map]
        rw [ihInner _ (fun pair member => ?_) (by simp [← lengths]),
          forall_mem_zip_zip lengths target (Meets components)]
        obtain ⟨child, inside, same⟩ := List.mem_map.mp (List.of_mem_zip member).1
        exact same ▸ known child inside
      have first := passes_iff complete shallow occurs.1 agrees
      have others := ihRest targets occurs.2 (Nat.succ.inj length)
      rw [Content.elements, List.zip_cons_cons, List.forall_mem_cons, ← others, ← first, Passes,
        Components.visit, List.append_eq_nil_iff, List.append_eq_nil_iff]

/-- The issues without repeated reports are all gone only if there were none. -/
theorem firstReports_eq_nil_iff (issues : List Issue) :
    Components.firstReports [] issues = [] ↔ issues = [] := by
  cases issues with
  | nil => simp [Components.firstReports]
  | cons issue issues =>
    unfold Components.firstReports
    split <;> simp

/-- The validator finds no issue with a document exactly if the rules hold for it. -/
theorem issues_eq_nil_iff (complete : components.Complete) (shallow : components.Shallow)
    (document : Document) : components.issues document = [] ↔ Valid components document := by
  unfold Valid
  cases found : components.elements.find? document.root.name with
  | none => simp [Components.issues, found]
  | some declaration =>
    have visited := visit_eq_nil_iff complete shallow
      [(.declared declaration, "/" ++ document.root.name.localName)]
      (.element document.root.tag document.root.content .empty)
      (fun target member => by
        rw [List.mem_singleton.mp member]
        exact .element found) rfl
    simp only [Components.issues, found]
    rw [firstReports_eq_nil_iff, visited]
    simp [Content.elements]

/-- A schema with one element, whose type has a base, a group of particles and a group of
attributes. -/
def placeSchema : Components where
  elements := [(.plain "place", ⟨.plain "place", .named (.plain "Place"), none, false⟩),
    (.plain "name", ⟨.plain "name", .named ⟨some schemaUri, "string"⟩, none, false⟩)]
  types := [(.plain "Base", .complex ⟨none, .empty, [⟨.plain "id", true, false⟩], [], false⟩),
    (.plain "Place", .complex ⟨some (.plain "Base", .extension), .particle (.group (.plain "parts")),
      [], [.plain "common"], false⟩)]
  groups := [(.plain "parts", .compositor [.reference (.plain "name"), .any ⟨.any, .lax⟩])]
  attributeGroups := [(.plain "common", ⟨[⟨.plain "lang", false, false⟩], [], false⟩)]
  substitutions := []

def placePieces : List Piece :=
  [.declaration ⟨.plain "place", .named (.plain "Place"), none, false⟩,
    .declaration ⟨.plain "name", .named ⟨some schemaUri, "string"⟩, none, false⟩,
    .definition (.complex ⟨none, .empty, [⟨.plain "id", true, false⟩], [], false⟩),
    .definition (.complex ⟨some (.plain "Base", .extension), .particle (.group (.plain "parts")), [],
      [.plain "common"], false⟩),
    .particle (.compositor [.reference (.plain "name"), .any ⟨.any, .lax⟩]),
    .particle (.group (.plain "parts")), .particle (.reference (.plain "name")),
    .particle (.any ⟨.any, .lax⟩)]

theorem mem_placePieces {piece : Piece} (occurs : Occurs placeSchema piece) : piece ∈ placePieces := by
  induction occurs with
  | element found =>
    have member := Table.mem_of_find? found
    simp [placeSchema] at member
    rcases member with ⟨_, rfl⟩ | ⟨_, rfl⟩ <;> simp [placePieces]
  | type found =>
    have member := Table.mem_of_find? found
    simp [placeSchema] at member
    rcases member with ⟨_, rfl⟩ | ⟨_, rfl⟩ <;> simp [placePieces]
  | group found =>
    have member := Table.mem_of_find? found
    simp [placeSchema] at member
    obtain ⟨_, rfl⟩ := member
    simp [placePieces]
  | anonymous _ same ih => 
    simp [placePieces] at ih
    rcases ih with rfl | rfl <;> simp at same
  | content _ same ih => 
    simp [placePieces] at ih
    rcases ih with rfl | rfl <;> simp at same
    subst same
    simp [placePieces]
  | nested _ member ih => 
    simp [placePieces] at ih
    subst ih
    simp at member
    rcases member with rfl | rfl <;> simp [placePieces]
  | inPlace _ ih => simp [placePieces] at ih

theorem placeSchema_complete : placeSchema.Complete := by
  constructor
  · intro declaration name occurs same
    have member := mem_placePieces occurs
    simp [placePieces] at member
    rcases member with rfl | rfl <;> cases same
    · exact .inr rfl
    · exact .inl rfl
  · intro declaration head occurs same
    have member := mem_placePieces occurs
    simp [placePieces] at member
    rcases member with rfl | rfl <;> cases same
  · intro type name derivation occurs same
    have member := mem_placePieces occurs
    simp [placePieces] at member
    rcases member with rfl | rfl <;> cases same
    exact .inr rfl
  · intro name occurs
    have member := mem_placePieces occurs
    simp [placePieces] at member
    subst member
    rfl
  · intro type name occurs listed
    have member := mem_placePieces occurs
    simp [placePieces] at member
    rcases member with rfl | rfl
    · simp at listed
    · obtain rfl : name = _ := by simpa using listed
      rfl
  · intro name group inner found listed
    have member := Table.mem_of_find? found
    simp [placeSchema] at member
    obtain ⟨_, rfl⟩ := member
    simp at listed

theorem placeSchema_shallow : placeSchema.Shallow := by
  have nested (depth : Nat) : placeSchema.ParticleWithin (depth + 1)
      (.compositor [.reference (.plain "name"), .any ⟨.any, .lax⟩]) := by
    refine .compositor fun particle member => ?_
    simp at member
    rcases member with rfl | rfl
    · exact .reference
    · exact .any
  have base (depth : Nat) : placeSchema.DefinitionWithin depth
      (.complex ⟨none, .empty, [⟨.plain "id", true, false⟩], [], false⟩) := .underived rfl .nil
  constructor
  · intro definition occurs
    have member := mem_placePieces occurs
    simp [placePieces] at member
    rcases member with rfl | rfl
    · exact base _
    · refine .derived rfl (fun definition _ found => ?_) (.cons (fun group found => ?_) .nil)
      · obtain rfl := Option.some.inj (found.symm.trans rfl)
        exact base _
      · obtain rfl := Option.some.inj (found.symm.trans rfl)
        exact .nil
  · intro declaration occurs
    have member := mem_placePieces occurs
    simp [placePieces] at member
    rcases member with rfl | rfl
    · exact .typed (by simp)
    · exact .typed (by simp)
  · intro particle occurs
    have member := mem_placePieces occurs
    simp [placePieces] at member
    rcases member with rfl | rfl | rfl | rfl
    · exact nested _
    · refine .group fun particle found => ?_
      obtain rfl := Option.some.inj (found.symm.trans rfl)
      exact nested _
    · exact .reference
    · exact .any

theorem valid_place : Valid placeSchema ⟨[], ⟨⟨.plain "place", none, [],
      [⟨.plain "id", none, "1"⟩], none, none⟩,
    .element ⟨.plain "name", none, [], [], some "x", none⟩ .empty
      (.element ⟨.plain "name", none, [], [], some "y", none⟩ .empty .empty)⟩, []⟩ :=
  (issues_eq_nil_iff placeSchema_complete placeSchema_shallow _).mp (by decide)

end KeyholeMarkup.Schema

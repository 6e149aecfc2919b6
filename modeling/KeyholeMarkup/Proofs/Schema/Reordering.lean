import KeyholeMarkup.Proofs.Schema.Alike
import KeyholeMarkup.Proofs.Schema.Loading
import KeyholeMarkup.Proofs.Schema.Narrowing
import Mathlib.Data.List.Find
import Mathlib.Data.List.Pairwise

/-! The order of declarations. A document without mentions is loaded to tables of what its children
declare. Where no component is declared twice, the tables answer alike in any order of the
children. -/
namespace KeyholeMarkup.Schema
open KeyholeMarkup.Storage KeyholeMarkup.Xml

theorem Table.find?_insert {α : Type} (table : Table α) (name other : Name) (value : α) :
    (table.insert name value).find? other =
      if other = name then some value else table.find? other := by
  split
  · rename_i same
    rw [same, find?_insert_self]
  · rename_i different
    exact find?_insert_of_ne table value different

namespace Definition

def component? : Definition → Option (ComponentKind × Name)
  | .mention .. => none
  | .element declaration => some (.element, declaration.name)
  | .type name _ => some (.type, name)
  | .group name _ => some (.group, name)
  | .attributeGroup name _ => some (.attributeGroup, name)

/-- The definitions are not of one component. -/
def Apart (first second : Definition) : Prop := ∀ key, first.component? = some key →
  ∀ key', second.component? = some key' → key ≠ key'

/-- The element that joins the substitution group of a head. -/
def memberOf? (head : Name) : Definition → Option Name
  | .element declaration =>
    if declaration.substitutes = some head then some declaration.name else none
  | _ => none

end Definition

namespace Components

/-- What a name leads to among the components of a kind. -/
def lookup (components : Components) : ComponentKind × Name → Option Definition
  | (.element, name) => (components.elements.find? name).map .element
  | (.type, name) => (components.types.find? name).map (.type name)
  | (.group, name) => (components.groups.find? name).map (.group name)
  | (.attributeGroup, name) => (components.attributeGroups.find? name).map (.attributeGroup name)

section
variable (components : Components) (definition : Definition)

/-- A definition takes the place of one of its kind and name, and leaves all others as they are. -/
theorem lookup_add (key : ComponentKind × Name) : (components.add definition).lookup key =
    if definition.component? = some key then some definition else components.lookup key := by
  obtain ⟨kind, name⟩ := key
  cases definition with
  | mention => rfl
  | element declaration =>
    by_cases same : declaration.name = name
    · cases kind <;> simp [lookup, add, addElement, Table.find?_insert, Definition.component?, same]
    · cases kind <;>
        simp [lookup, add, addElement, Table.find?_insert, Definition.component?, same, Ne.symm same]
  | type own | group own | attributeGroup own =>
    by_cases same : own = name
    · cases kind <;> simp [lookup, add, Table.find?_insert, Definition.component?, same]
    · cases kind <;>
        simp [lookup, add, Table.find?_insert, Definition.component?, same, Ne.symm same]

theorem find?_substitutions_add (head : Name) :
    (components.add definition).substitutions.find? head =
      match definition.memberOf? head with
      | .none => components.substitutions.find? head
      | some member => some ((components.substitutions.find? head).getD [] ++ [member]) := by
  cases definition with
  | mention | type | group | attributeGroup => rfl
  | element declaration =>
    rw [add, addElement, Definition.memberOf?]
    cases joined : declaration.substitutes with
    | none => simp
    | some other =>
      by_cases same : other = head
      · simp [Table.find?_insert, same]
      · simp [Table.find?_insert, same, Ne.symm same]

variable {components} {found found' : List Definition}

/-- A name leads to the last definition of it. -/
theorem lookup_foldl_add (key : ComponentKind × Name) : (found.foldl add components).lookup key =
    (found.reverse.find? (·.component? = some key)).or (components.lookup key) := by
  induction found generalizing components with
  | nil => rfl
  | cons definition found ih =>
    rw [List.foldl_cons, ih, lookup_add, List.reverse_cons, List.find?_append, Option.or_assoc]
    congr 1
    by_cases own : definition.component? = some key <;> simp [own]

/-- The members of a group are those that join it, in the order of their definitions. -/
theorem find?_substitutions_foldl_add (head : Name) :
    (found.foldl add components).substitutions.find? head =
      if found.filterMap (·.memberOf? head) = [] then components.substitutions.find? head
      else some ((components.substitutions.find? head).getD [] ++
        found.filterMap (·.memberOf? head)) := by
  induction found generalizing components with
  | nil => rfl
  | cons definition found ih =>
    rw [List.foldl_cons, ih, find?_substitutions_add]
    cases joined : definition.memberOf? head with
    | none => rw [List.filterMap_cons_none joined]
    | some member =>
      rw [List.filterMap_cons_some joined, if_neg (List.cons_ne_nil _ _)]
      split
      · rename_i nothing
        rw [nothing]
      · simp

theorem eq_of_component? (distinct : (found.filterMap Definition.component?).Nodup)
    {key : ComponentKind × Name} {first second : Definition} (member : first ∈ found)
    (member' : second ∈ found) (own : first.component? = some key)
    (own' : second.component? = some key) : first = second := by
  have symmetric : Std.Symm Definition.Apart :=
    ⟨fun _ _ different key own key' own' => (different key' own' key own).symm⟩
  have pairs : found.Pairwise Definition.Apart := List.pairwise_filterMap.mp distinct
  by_contra different
  exact pairs.forall member member' different key own key own' rfl

/-- Definitions of different components can be added in any order. -/
theorem alike_of_perm (same : found.Perm found')
    (distinct : (found.filterMap Definition.component?).Nodup) :
    (found.foldl add none).Alike (found'.foldl add none) := by
  have looked (key : ComponentKind × Name) :
      (found'.foldl add none).lookup key = (found.foldl add none).lookup key := by
    -- The last definition of a component is its only one, so it is found from either order.
    have reversed : found.reverse.Perm found'.reverse :=
      found.reverse_perm.trans (same.trans found'.reverse_perm.symm)
    rw [lookup_foldl_add, lookup_foldl_add, List.find?_eq_find?_of_perm reversed]
    intro first own second own'
    simp only [Set.mem_ofPred_eq, List.mem_reverse, decide_eq_true_eq] at own own'
    exact eq_of_component? distinct own.1 own'.1 own.2 own'.2
  refine ⟨?_, ?_, ?_, ?_, ?_⟩
  · intro name
    exact Option.map_injective (fun _ _ => Definition.element.inj) (looked (.element, name))
  · intro name
    exact Option.map_injective (fun _ _ same => (Definition.type.inj same).2) (looked (.type, name))
  · intro name
    exact Option.map_injective (fun _ _ same => (Definition.group.inj same).2) (looked (.group, name))
  · intro name
    exact Option.map_injective (fun _ _ same => (Definition.attributeGroup.inj same).2)
      (looked (.attributeGroup, name))
  · intro head
    have members := same.filterMap (·.memberOf? head)
    rw [find?_substitutions_foldl_add, find?_substitutions_foldl_add]
    by_cases nothing : found.filterMap (·.memberOf? head) = []
    · rw [nothing] at members
      rw [if_pos nothing, if_pos members.nil_eq.symm]
      exact .none
    · have something : found'.filterMap (·.memberOf? head) ≠ [] := by
        intro empty
        rw [empty] at members
        exact nothing members.eq_nil
      rw [if_neg nothing, if_neg something]
      exact .some members

end

end Components

section
variable (settings : Settings) (bindings : Bindings)

def made? (child : Element) : Option Definition :=
  (childDefinition settings bindings child).toOption.join

/-- A content has no flaw if none of its elements has one, and then the definitions are those that
they make. -/
theorem definitions_eq_iff (content : Content) (found : List Definition) :
    definitions settings bindings content = (found, none) ↔
      (∀ child ∈ content.elements, (childDefinition settings bindings child).isOk) ∧
        content.elements.filterMap (made? settings bindings) = found := by
  induction content generalizing found with
  | empty => simp [definitions, Content.elements]
  | comment entry rest ih => exact ih found
  | element tag inner rest _ ih =>
    rw [definitions_element, Content.elements, List.forall_mem_cons]
    cases read : childDefinition settings bindings ⟨tag, inner⟩ with
    | error error => simp [Except.isOk, Except.toBool]
    | ok first =>
      have own : made? settings bindings ⟨tag, inner⟩ = first := by
        rw [made?, read]
        rfl
      have behind : (⟨tag, inner⟩ :: rest.elements).filterMap (made? settings bindings) =
          first.toList ++ rest.elements.filterMap (made? settings bindings) := by
        cases first <;> simp [own]
      rw [behind]
      constructor
      · intro all
        obtain ⟨same, flawless⟩ := Prod.mk.inj all
        obtain ⟨sound, others⟩ := (ih _).mp (Prod.ext rfl flawless)
        rw [others]
        exact ⟨⟨rfl, sound⟩, same⟩
      · rintro ⟨⟨-, sound⟩, same⟩
        rw [(ih _).mpr ⟨sound, rfl⟩]
        exact congrArg (·, none) same

end

def kindOf? (localName : String) : Option ComponentKind :=
  match localName with
  | "element" => some .element
  | "complexType" | "simpleType" => some .type
  | "group" => some .group
  | "attributeGroup" => some .attributeGroup
  | _ => none

/-- The kind and the local name of the component that a child of the schema element declares. -/
def component? (child : Element) : Option (ComponentKind × String) :=
  if inSchema child.tag then do
    return (← kindOf? child.tag.name.localName, ← child.tag.attribute? "name")
  else none

/-- A child that mentions another document. -/
def IsMention (child : Element) : Prop := inSchema child.tag ∧
  (child.tag.name.localName = "import" ∨ child.tag.name.localName = "include")

instance (child : Element) : Decidable (IsMention child) := inferInstanceAs (Decidable (_ ∧ _))

theorem exists_of_bind {α β : Type} {first : Except LoadError α} {next : α → Except LoadError β}
    {result : β} (read : first >>= next = .ok result) :
    ∃ value, first = .ok value ∧ next value = .ok result := by
  cases first with
  | error error => cases read
  | ok value => exact ⟨value, rfl, read⟩

section
variable {settings : Settings} {bindings : Bindings} {tag : Tag} {inner : Content}

theorem name_of_elementDeclaration {type : Unit → Except LoadError (Option ComplexType)}
    {isGlobal : Bool} {declaration : ElementDeclaration}
    (read : elementDeclaration settings bindings tag inner isGlobal type = .ok declaration) :
    ∃ localName, tag.attribute? "name" = some localName ∧ declaration.name =
      settings.name (isGlobal || isQualified tag settings.elementsQualified) localName := by
  unfold elementDeclaration at read
  cases named : tag.attribute? "name" with
  | none => simp [named, Settings.flawed, bind, Except.bind] at read
  | some localName =>
    simp only [named, bind, Except.bind, pure, Except.pure] at read
    refine ⟨localName, rfl, ?_⟩
    repeat' split at read
    all_goals cases read
    all_goals rfl

theorem name_of_globalName {name : Name} (read : globalName settings tag = .ok name) :
    ∃ localName, tag.attribute? "name" = some localName ∧
      name = settings.name true localName := by
  unfold globalName at read
  cases named : tag.attribute? "name" with
  | none => simp [named, Settings.flawed] at read
  | some localName => exact ⟨localName, rfl, by simpa [named] using read.symm⟩

/-- A child that is no mention defines the component that it declares. -/
theorem component?_of_childDefinition {child : Element} {definition : Definition}
    (read : childDefinition settings bindings child = .ok (some definition)) (own : ¬ IsMention child) :
    ∃ kind localName, component? child = some (kind, localName) ∧
      definition.component? = some (kind, settings.name true localName) := by
  rw [childDefinition] at read
  split at read
  · rename_i schema
    suffices ∃ kind localName, kindOf? child.tag.name.localName = some kind ∧
        child.tag.attribute? "name" = some localName ∧
        definition.component? = some (kind, settings.name true localName) by
      obtain ⟨kind, localName, ofKind, named, defined⟩ := this
      refine ⟨kind, localName, ?_, defined⟩
      rw [component?, if_pos schema, ofKind, named]
      rfl
    unfold definition? at read
    split at read
    · rename_i name
      exact absurd ⟨schema, .inl name⟩ own
    · rename_i name
      exact absurd ⟨schema, .inr name⟩ own
    · rename_i name
      obtain ⟨declaration, made, read⟩ := exists_of_bind read
      obtain ⟨localName, named, called⟩ := name_of_elementDeclaration made
      cases read
      refine ⟨.element, localName, by rw [name]; rfl, named, ?_⟩
      rw [Definition.component?, called]
      rfl
    · rename_i name
      obtain ⟨called, made, read⟩ := exists_of_bind read
      obtain ⟨localName, named, rfl⟩ := name_of_globalName made
      obtain ⟨items, -, read⟩ := exists_of_bind read
      cases read
      exact ⟨.type, localName, by rw [name]; rfl, named, rfl⟩
    · rename_i name
      obtain ⟨called, made, read⟩ := exists_of_bind read
      obtain ⟨localName, named, rfl⟩ := name_of_globalName made
      cases read
      exact ⟨.type, localName, by rw [name]; rfl, named, rfl⟩
    · rename_i name
      obtain ⟨called, made, read⟩ := exists_of_bind read
      obtain ⟨localName, named, rfl⟩ := name_of_globalName made
      obtain ⟨items, -, read⟩ := exists_of_bind read
      cases read
      exact ⟨.group, localName, by rw [name]; rfl, named, rfl⟩
    · rename_i name
      obtain ⟨called, made, read⟩ := exists_of_bind read
      obtain ⟨localName, named, rfl⟩ := name_of_globalName made
      obtain ⟨items, -, read⟩ := exists_of_bind read
      cases read
      exact ⟨.attributeGroup, localName, by rw [name]; rfl, named, rfl⟩
    · cases read
  · cases read

end

theorem childDefinition_of_made? {settings : Settings} {bindings : Bindings} {child : Element}
    {definition : Definition} (made : made? settings bindings child = some definition) :
    childDefinition settings bindings child = .ok (some definition) := by
  unfold made? at made
  cases read : childDefinition settings bindings child with
  | error error => simp [read, Except.toOption] at made
  | ok found =>
    rw [read] at made
    exact congrArg Except.ok made

section
variable {children : List Element} (settings : Settings) (bindings : Bindings)

/-- Distinct components are distinct in any namespace. -/
theorem nodup_component? (own : ∀ child ∈ children, ¬ IsMention child)
    (distinct : (children.filterMap component?).Nodup) :
    ((children.filterMap (made? settings bindings)).filterMap Definition.component?).Nodup := by
  have named {child : Element} (member : child ∈ children) {key : ComponentKind × Name}
      (defined : (made? settings bindings child).bind Definition.component? = some key) :
      ∃ kind localName, component? child = some (kind, localName) ∧
        key = (kind, settings.name true localName) := by
    obtain ⟨definition, made, known⟩ := Option.bind_eq_some_iff.mp defined
    obtain ⟨kind, localName, declared, called⟩ :=
      component?_of_childDefinition (childDefinition_of_made? made) (own child member)
    exact ⟨kind, localName, declared, Option.some.inj (known.symm.trans called)⟩
  rw [List.filterMap_filterMap]
  apply List.pairwise_filterMap.mpr
  apply (List.pairwise_filterMap.mp distinct).imp_of_mem
  intro child child' member member' apart key defined key' defined' same
  obtain ⟨kind, localName, declared, rfl⟩ := named member defined
  obtain ⟨kind', localName', declared', rfl⟩ := named member' defined'
  obtain ⟨rfl, called⟩ := Prod.mk.inj same
  obtain rfl : localName = localName' := congrArg Name.localName called
  exact apart _ declared _ declared' rfl

theorem isSome_component? (own : ∀ child ∈ children, ¬ IsMention child) {definition : Definition}
    (found : definition ∈ children.filterMap (made? settings bindings)) :
    definition.component?.isSome := by
  obtain ⟨child, member, made⟩ := List.mem_filterMap.mp found
  obtain ⟨kind, localName, -, called⟩ :=
    component?_of_childDefinition (childDefinition_of_made? made) (own child member)
  rw [called]
  rfl

end

namespace Progress
variable {found : List Definition}

theorem foldl_add_of_isSome (own : ∀ definition ∈ found, definition.component?.isSome)
    (beside : Option Path) (progress : Progress) : found.foldl (add beside) progress =
      { progress with components := found.foldl Components.add progress.components } := by
  induction found generalizing progress with
  | nil => rfl
  | cons definition found ih =>
    rw [List.forall_mem_cons] at own
    rw [List.foldl_cons, ih own.2]
    cases definition with
    | mention => cases own.1
    | element | type | group | attributeGroup => rfl

end Progress

/-- The main schema has this text, as it is or in a file. -/
inductive MainSchema.Holds (tree : Tree) (folders : List Path) :
    MainSchema → Option Path → String → Prop
  | text (schema : String) : Holds tree folders (.text schema) none schema
  | file {main file place} {text : String} : main.file? tree folders = some (file, place) →
    tree.entryAt place = some (.file text.toUTF8) → Holds tree folders main (some file) text

section
variable {main : MainSchema} {tree : Tree} {folders : List Path} {file : Option Path} {text : String}
  (holds : main.Holds tree folders file text)
include holds

theorem MainSchema.Holds.begin : ∃ visited, main.begin tree folders =
    Progress.result ((definitionsIn file none text).1.foldl (Progress.add (file.map Path.folder))
      ⟨.none, visited, []⟩, (definitionsIn file none text).2) := by
  cases holds with
  | text => exact ⟨[], by rw [MainSchema.begin, Progress.addText_eq]; rfl⟩
  | @file _ file place _ found held =>
    refine ⟨[place], ?_⟩
    rw [begin_of_file? found, Progress.addFile_eq, definitionsAt_text held]
    rfl

theorem MainSchema.Holds.flawless {components : Components}
    (loads : main.load tree folders = .ok components) :
    ∃ found, definitionsIn file none text = (found, none) := by
  obtain ⟨visited, begun⟩ := holds.begin
  rw [MainSchema.load_eq, begun] at loads
  cases read : definitionsIn file none text with
  | mk found fault =>
    cases fault with
    | some error =>
      rw [read] at loads
      cases loads
    | none => exact ⟨found, rfl⟩

/-- A document without mentions and flaws is loaded to its own definitions. -/
theorem MainSchema.Holds.load {found : List Definition}
    (read : definitionsIn file none text = (found, none))
    (own : ∀ definition ∈ found, definition.component?.isSome) :
    main.load tree folders = .ok (found.foldl Components.add .none) := by
  obtain ⟨visited, begun⟩ := holds.begin
  rw [MainSchema.load_eq, begun, read, Progress.foldl_add_of_isSome own]
  change Except.ok (Progress.settle tree folders _).components = _
  rw [Progress.settle_nil tree folders rfl]

end

/-- Two elements that are written alike, with the same child elements in any order. -/
structure Reordered (first second : Element) : Prop where
  name : second.tag.name = first.tag.name
  declarations : second.tag.declarations = first.tag.declarations
  attributes : second.tag.attributes = first.tag.attributes
  children : first.content.elements.Perm second.content.elements

section
variable {first second : Document} {file : Option Path} {inherited : Option String}
  {found : List Definition}

theorem definitionsOf_eq_iff : definitionsOf file inherited first = (found, none) ↔
    IsSchema first ∧ definitions (settingsOf file inherited first) (.enter [] first.root.tag)
      first.root.content = (found, none) := by
  rw [definitionsOf]
  by_cases schema : IsSchema first <;> simp [schema]

theorem definitionsOf_distinct (read : definitionsOf file inherited first = (found, none))
    (own : ∀ child ∈ first.root.content.elements, ¬ IsMention child)
    (distinct : (first.root.content.elements.filterMap component?).Nodup) :
    (∀ definition ∈ found, definition.component?.isSome) ∧
      (found.filterMap Definition.component?).Nodup := by
  obtain ⟨-, read⟩ := definitionsOf_eq_iff.mp read
  obtain ⟨-, rfl⟩ := (definitions_eq_iff _ _ _ _).mp read
  exact ⟨fun _ => isSome_component? _ _ own, nodup_component? _ _ own distinct⟩

theorem definitionsOf_reordered (reordered : Reordered first.root.unplaced second.root.unplaced)
    (read : definitionsOf file inherited first = (found, none)) :
    ∃ found', definitionsOf file inherited second = (found', none) ∧ found.Perm found' := by
  have bindings : Bindings.enter [] second.root.unplaced.tag =
      Bindings.enter [] first.root.unplaced.tag := by
    rw [Bindings.enter, Bindings.enter, reordered.declarations]
  obtain ⟨schema, read⟩ := definitionsOf_eq_iff.mp read
  rw [← definitions_unplaced, definitions_eq_iff] at read
  obtain ⟨sound, rfl⟩ := read
  refine ⟨_, definitionsOf_eq_iff.mpr ⟨(isSchema_congr reordered.name).mpr schema, ?_⟩,
    reordered.children.filterMap _⟩
  rw [settingsOf_congr reordered.attributes, ← definitions_unplaced, bindings, definitions_eq_iff]
  exact ⟨fun child member => sound child (reordered.children.mem_iff.mpr member), rfl⟩

end

/-- The order in which a document without mentions declares its components makes no difference, where
it declares none twice. -/
theorem load_reordered {text text' : String} {first second : Document}
    (parsed : Xml.parse 0 text = .ok first) (parsed' : Xml.parse 0 text' = .ok second)
    (reordered : Reordered first.root.unplaced second.root.unplaced)
    (own : ∀ child ∈ first.root.content.elements, ¬ IsMention child)
    (distinct : (first.root.content.elements.filterMap component?).Nodup)
    {main main' : MainSchema} {tree tree' : Tree} {folders folders' : List Path} {file : Option Path}
    (holds : main.Holds tree folders file text) (holds' : main'.Holds tree' folders' file text')
    {components : Components} (loads : main.load tree folders = .ok components) :
    ∃ components', main'.load tree' folders' = .ok components' ∧ components.Alike components' ∧
      ∀ document, components'.issues document = components.issues document := by
  obtain ⟨found, read⟩ := holds.flawless loads
  have read₁ : definitionsOf file none first = (found, none) := by
    simpa only [definitionsIn, parsed] using read
  obtain ⟨found', read₂, same⟩ := definitionsOf_reordered reordered read₁
  obtain ⟨named, apart⟩ := definitionsOf_distinct read₁ own distinct
  have read' : definitionsIn file none text' = (found', none) := by
    simpa only [definitionsIn, parsed'] using read₂
  have alike := Components.alike_of_perm same apart
  rw [holds.load read named] at loads
  cases loads
  exact ⟨_, holds'.load read' fun definition later => named definition (same.mem_iff.mpr later),
    alike, alike.issues⟩

/-- A schema with two elements that join the group of `h`. -/
def joiningText (first second : String) : String :=
  "<s:schema xmlns:s='http://www.w3.org/2001/XMLSchema'><s:element name='" ++ first ++
    "' substitutionGroup='h'/><s:element name='" ++ second ++ "' substitutionGroup='h'/></s:schema>"

/-- The schema as it is parsed where the names are single letters. -/
def joining (first second : String) : Document :=
  let element (name : String) (start : Nat) : Tag :=
    ⟨⟨some schemaUri, "element"⟩, some "s", [],
      [⟨.plain "name", none, name⟩, ⟨.plain "substitutionGroup", none, "h"⟩], none,
      some ⟨0, start, start + 43⟩⟩
  ⟨[], ⟨⟨⟨some schemaUri, "schema"⟩, some "s", [⟨some "s", schemaUri⟩], [], none, some ⟨0, 0, 150⟩⟩,
    .element (element first 53) .empty (.element (element second 96) .empty .empty)⟩, []⟩

set_option maxRecDepth 8000 in
theorem load_reordered_joining :
    ∃ first second components,
      Xml.parse 0 (joiningText "a" "b") = .ok first ∧
      Xml.parse 0 (joiningText "b" "a") = .ok second ∧
      Reordered first.root.unplaced second.root.unplaced ∧
      (∀ child ∈ first.root.content.elements, ¬ IsMention child) ∧
      (first.root.content.elements.filterMap component?).Nodup ∧
      (MainSchema.text (joiningText "a" "b")).load ⟨[], []⟩ [] = .ok components ∧
      ∃ components', (MainSchema.text (joiningText "b" "a")).load ⟨[], []⟩ [] = .ok components' ∧
        components.Alike components' ∧
        ∀ document, components'.issues document = components.issues document := by
  have parsed : Xml.parse 0 (joiningText "a" "b") = .ok (joining "a" "b") := by rfl
  have parsed' : Xml.parse 0 (joiningText "b" "a") = .ok (joining "b" "a") := by rfl
  have reordered : Reordered (joining "a" "b").root.unplaced (joining "b" "a").root.unplaced :=
    ⟨rfl, rfl, rfl, .swap _ _ _⟩
  have own : ∀ child ∈ (joining "a" "b").root.content.elements, ¬ IsMention child := by decide
  have distinct : ((joining "a" "b").root.content.elements.filterMap component?).Nodup := by decide
  have read : definitionsOf none none (joining "a" "b") =
      ((definitionsOf none none (joining "a" "b")).1, none) := by rfl
  have holds : (MainSchema.text (joiningText "a" "b")).Holds ⟨[], []⟩ [] none (joiningText "a" "b") :=
    .text _
  have loads := holds.load (by rw [definitionsIn, parsed]; exact read)
    (definitionsOf_distinct read own distinct).1
  exact ⟨_, _, _, parsed, parsed', reordered, own, distinct, loads,
    load_reordered parsed parsed' reordered own distinct holds (.text _) loads⟩

end KeyholeMarkup.Schema

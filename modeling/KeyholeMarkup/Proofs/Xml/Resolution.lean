import KeyholeMarkup.Proofs.Xml.WrittenTag
import Mathlib.Data.List.Find

/-! The two views of what is in scope. The writer's declarations and the reader's bindings give every
prefix the same namespace. -/
namespace KeyholeMarkup.Xml

theorem within_of_ne_empty {uri : Option String} {localName : String} (kept : uri ≠ some "") :
    Name.within uri localName = ⟨uri, localName⟩ := by
  cases uri with
  | none => rfl
  | some uri =>
    have nonempty : uri ≠ "" := fun same => kept (congrArg some same)
    simp [Name.within, Option.filter, nonempty]

/-- A namespace that is read as it is written. -/
def IsUriText (uri : String) : Prop :=
  ∀ c ∈ uri.toList, isSpecial c = false ∧ c ≠ '\t' ∧ c ≠ '\n' ∧ c ≠ '\r'

instance (uri : String) : Decidable (IsUriText uri) :=
  decidable_of_iff (uri.toList.all fun c => !(isSpecial c || c == '\t' || c == '\n' || c == '\r'))
    (by simp [IsUriText, and_assoc])

/-- A declaration that the reader accepts and understands. The prefix `xml` may be declared as what
it stands for anyhow. -/
structure Declaration.Sound (declaration : Declaration) : Prop where
  uri : IsUriText declaration.uri
  part : ∀ bound, declaration.nsPrefix = some bound →
    IsNamePart bound ∧ bound ≠ "xmlns" ∧ declaration.uri ≠ xmlnsUri ∧
      (bound = "xml" ↔ declaration.uri = xmlUri)

def Naming.Sound (naming : Naming) : Prop :=
  ∀ declaration ∈ naming.declarations, declaration.Sound

/-- The binding that a declaration is read as. -/
def Declaration.binding (declaration : Declaration) : Binding :=
  ⟨(declaration.nsPrefix.getD "").toList, declaration.uri.toList⟩

/-- Whether a declaration adds a binding to the scope. -/
def Declaration.binds (declaration : Declaration) : Bool := declaration.nsPrefix != some "xml"

def bindings (declarations : List Declaration) : Scope :=
  (declarations.filter Declaration.binds).map Declaration.binding

/-- The scope of the reader where the writer has these declarations. -/
def Naming.scope (naming : Naming) : Scope := bindings naming.declarations ++ Scope.predefined

theorem bindings_append (first second : List Declaration) :
    bindings (first ++ second) = bindings first ++ bindings second := by
  simp [bindings]

theorem bindings_singleton {declaration : Declaration} (other : declaration.nsPrefix ≠ some "xml") :
    bindings [declaration] = [declaration.binding] := by
  have binds : declaration.binds = true := by simpa [Declaration.binds] using other
  simp [bindings, binds]

theorem IsNamePart.ne_empty {text : String} (part : IsNamePart text) : text ≠ "" := by
  rintro rfl
  exact part.tagName.nonempty rfl

theorem escape_uri {uri : String} (plain : IsUriText uri) : escape uri.toList = uri.toList :=
  escape_eq_self fun c member => (plain c member).1

theorem Declaration.Sound.isEmpty_binding {declaration : Declaration} (sound : declaration.Sound) :
    declaration.binding.bound.isEmpty = (declaration.nsPrefix == none) := by
  cases nsPrefix : declaration.nsPrefix with
  | none => simp [binding, nsPrefix]
  | some bound => simp [binding, nsPrefix, (sound.part bound nsPrefix).1.ne_empty]

theorem Declaration.Sound.bound_eq {declaration : Declaration} (sound : declaration.Sound)
    (bound : String) : (!declaration.binding.bound.isEmpty &&
      declaration.binding.bound == bound.toList) = (declaration.nsPrefix == some bound) := by
  rw [sound.isEmpty_binding]
  cases nsPrefix : declaration.nsPrefix with
  | none => simp
  | some other =>
    rw [Bool.eq_iff_iff]
    simp [binding, nsPrefix, String.toList_inj]

namespace Naming

variable {naming : Naming}

theorem find?_scope (wanted : Binding → Bool) (declared : Declaration → Bool)
    (agree : ∀ declaration ∈ naming.declarations,
      (declaration.binds && wanted declaration.binding) = declared declaration) :
    naming.scope.find? wanted =
      ((naming.declarations.find? declared).map Declaration.binding).or
        (Scope.predefined.find? wanted) := by
  have same : (naming.declarations.filter Declaration.binds).find? (wanted ∘ Declaration.binding) =
      naming.declarations.find? declared := by
    rw [List.find?_filter]
    apply List.find?_congr
    intro declaration member
    rw [← agree declaration member]
    simp
  rw [scope, bindings, List.find?_append, List.find?_map, same]

theorem lookup?_eq_some {nsPrefix : Option String} {uri : String}
    (found : naming.lookup? nsPrefix = some uri) :
    ∃ declaration, naming.declarations.find? (·.nsPrefix == nsPrefix) = some declaration ∧
      declaration.uri = uri ∧ uri ≠ "" := by
  simp only [lookup?, Option.filter_eq_some_iff, Option.map_eq_some_iff] at found
  obtain ⟨⟨declaration, located, rfl⟩, kept⟩ := found
  exact ⟨declaration, located, rfl, by simpa using kept⟩

theorem mem_of_lookup? {nsPrefix : Option String} {uri : String}
    (found : naming.lookup? nsPrefix = some uri) :
    ⟨nsPrefix, uri⟩ ∈ naming.declarations := by
  obtain ⟨⟨bound, _⟩, located, rfl, -⟩ := lookup?_eq_some found
  have same : bound = nsPrefix := by simpa using List.find?_some located
  exact same ▸ List.mem_of_find?_eq_some located

def Undeclared (naming : Naming) (bound : String) : Prop :=
  ∀ declaration ∈ naming.declarations, declaration.nsPrefix ≠ some bound

theorem lookup?_of_undeclared {bound : String} (undeclared : naming.Undeclared bound) :
    naming.lookup? (some bound) = none := by
  have absent : naming.declarations.find? (·.nsPrefix == some bound) = none :=
    List.find?_eq_none.mpr fun declaration member => by simpa using undeclared declaration member
  simp [lookup?, absent]

theorem here_subset {declaration : Declaration} (member : declaration ∈ naming.here) :
    declaration ∈ naming.declarations := by
  unfold here at member
  unfold declarations
  cases frames : naming.frames with
  | nil => simp [frames] at member
  | cons frame others =>
    rw [frames] at member
    exact List.mem_flatMap.mpr ⟨frame, by simp, by simpa using member⟩

theorem not_isDeclaredHere {bound : String} (undeclared : naming.Undeclared bound) :
    naming.isDeclaredHere (some bound) = false := by
  refine List.any_eq_false.mpr fun declaration member => ?_
  simpa using undeclared declaration (here_subset member)

/-- A sound naming without the prefix `xml` does not declare it: it could not be taken back. -/
theorem Sound.undeclared_xml (sound : naming.Sound) (missing : naming.lookup? (some "xml") = none) :
    naming.Undeclared "xml" := by
  intro declaration member same
  cases located : naming.declarations.find? (·.nsPrefix == some "xml") with
  | none => simpa [same] using List.find?_eq_none.mp located declaration member
  | some found =>
    have bound : found.nsPrefix = some "xml" := by simpa using List.find?_some located
    have uri := ((sound found (List.mem_of_find?_eq_some located)).part "xml" bound).2.2.2.mp rfl
    have nonempty : xmlUri ≠ "" := by decide
    simp [lookup?, located, uri, Option.filter, nonempty] at missing

theorem Sound.resolve_none (sound : naming.Sound) :
    naming.scope.resolve none = .ok ((naming.lookup? none).map String.toList) := by
  have found := find?_scope (·.bound.isEmpty) (·.nsPrefix == none) fun declaration member => by
    rw [(sound declaration member).isEmpty_binding, Declaration.binds]
    cases declaration.nsPrefix <;> simp
  have predefined : Scope.predefined.find? (·.bound.isEmpty) = none := by decide
  rw [predefined, Option.or_none] at found
  unfold Scope.resolve
  simp only [found, lookup?]
  cases naming.declarations.find? (·.nsPrefix == none) with
  | none => rfl
  | some declaration =>
    by_cases empty : declaration.uri = ""
    · simp [Declaration.binding, empty, Option.filter]
    · simp [Declaration.binding, empty, Option.filter]

/-- The prefix `xml` stands for its namespace, whatever is declared. -/
theorem Sound.resolve_xml (sound : naming.Sound) :
    naming.scope.resolve (some "xml".toList) = .ok (some xmlUri.toList) := by
  have found := find?_scope (fun binding => !binding.bound.isEmpty &&
    binding.bound == "xml".toList) (fun _ => false) fun declaration member => by
      rw [(sound declaration member).bound_eq, Declaration.binds]
      simp
  have undeclared : naming.declarations.find? (fun _ => false) = none :=
    List.find?_eq_none.mpr fun _ _ => Bool.false_ne_true
  have predefined : Scope.predefined.find? (fun binding =>
      !binding.bound.isEmpty && binding.bound == "xml".toList) =
      some ⟨"xml".toList, xmlUri.toList⟩ := by decide
  rw [undeclared, predefined, Option.map_none, Option.none_or] at found
  unfold Scope.resolve
  simp only [found]
  rfl

theorem Sound.find?_bound (sound : naming.Sound) {bound : String} (notXml : bound ≠ "xml") :
    naming.scope.find? (fun binding => !binding.bound.isEmpty && binding.bound == bound.toList) =
      ((naming.declarations.find? (·.nsPrefix == some bound)).map Declaration.binding).or
        (Scope.predefined.find? fun binding =>
          !binding.bound.isEmpty && binding.bound == bound.toList) := by
  refine find?_scope _ _ fun declaration member => ?_
  rw [(sound declaration member).bound_eq, Declaration.binds]
  by_cases same : declaration.nsPrefix = some bound
  · simp [same, notXml]
  · have other : (declaration.nsPrefix == some bound) = false := by simpa using same
    rw [other, Bool.and_false]

theorem Sound.uri_of_lookup?_xml (sound : naming.Sound) {uri : String}
    (looked : naming.lookup? (some "xml") = some uri) : uri = xmlUri :=
  ((sound _ (mem_of_lookup? looked)).part "xml" rfl).2.2.2.mp rfl

theorem Sound.resolve_some (sound : naming.Sound) {bound uri : String}
    (looked : naming.lookup? (some bound) = some uri) :
    naming.scope.resolve (some bound.toList) = .ok (some uri.toList) := by
  by_cases notXml : bound = "xml"
  · subst notXml
    rw [sound.resolve_xml, sound.uri_of_lookup?_xml looked]
  obtain ⟨declaration, located, rfl, kept⟩ := lookup?_eq_some looked
  have found := sound.find?_bound notXml
  unfold Scope.resolve
  rw [located, Option.map_some, Option.some_or] at found
  simp [found, Declaration.binding, kept]

/-- What the reader finds in scope the writer finds among its declarations. -/
theorem Sound.lookup?_of_resolve (sound : naming.Sound) {bound : String} {uri : List Char}
    (notXml : bound ≠ "xml") (notXmlns : bound ≠ "xmlns")
    (resolves : naming.scope.resolve (some bound.toList) = .ok (some uri)) :
    naming.lookup? (some bound) = some (String.ofList uri) := by
  have predefined : Scope.predefined.find? (fun binding =>
      !binding.bound.isEmpty && binding.bound == bound.toList) = none := by
    have apart {text : String} (other : bound ≠ text) : (text.toList == bound.toList) = false := by
      simpa [String.toList_inj] using fun same => other same.symm
    simp only [Scope.predefined, List.find?_cons, apart notXml, apart notXmlns, Bool.and_false,
      List.find?_nil]
  have found := sound.find?_bound notXml
  rw [predefined, Option.or_none] at found
  simp only [Scope.resolve, found] at resolves
  unfold lookup?
  cases located : naming.declarations.find? (·.nsPrefix == some bound) with
  | none => simp [located] at resolves
  | some declaration =>
    rw [located, Option.map_some] at resolves
    simp only at resolves
    split at resolves
    · contradiction
    · rename_i nonempty
      simp only [Except.ok.injEq, Option.some.injEq, Declaration.binding] at resolves nonempty
      subst resolves
      have kept : declaration.uri ≠ "" := by simpa using nonempty
      simp [Option.filter, kept]

end Naming

/-- Of what is written in a tag only the declarations change the scope. -/
theorem foldlM_declare {written : List WrittenAttribute} {declarations : List Declaration}
    {attributes : List (String × String)}
    (reads : written.map (fun entry => (entry.name, entry.value)) =
      (declarations.map Declaration.written ++ attributes).map AttributeList.asWritten)
    (sound : ∀ declaration ∈ declarations, declaration.Sound)
    (others : ∀ entry ∈ attributes, declaredPrefix? entry.1.toList = none) (scope : Scope) :
    written.foldlM Scope.declare scope =
      .ok (bindings declarations.reverse ++ scope) := by
  induction declarations generalizing written scope with
  | nil =>
    induction attributes generalizing written with
    | nil =>
      obtain rfl : written = [] := by simpa using reads
      rfl
    | cons entry rest ih =>
      obtain ⟨head, tail, rfl, headReads, tailReads⟩ := List.map_eq_cons_iff.mp reads
      have skipped : scope.declare head = .ok scope := by
        have name : head.name = entry.1.toList := congrArg Prod.fst headReads
        simp [Scope.declare, name, others entry (by simp)]
      rw [List.foldlM_cons, skipped]
      exact ih (fun other member => others other (by simp [member])) tailReads
  | cons declaration rest ih =>
    obtain ⟨head, tail, rfl, headReads, tailReads⟩ := List.map_eq_cons_iff.mp reads
    have soundHead := sound declaration (by simp)
    have added : scope.declare head = .ok (bindings [declaration] ++ scope) := by
      have name : head.name = declaration.written.1.toList := congrArg Prod.fst headReads
      have uri : declaration.written.2 = declaration.uri := by
        unfold Declaration.written
        split <;> rfl
      have value : head.value = declaration.uri.toList := by
        rw [← escape_uri soundHead.uri, ← uri]
        exact congrArg Prod.snd headReads
      unfold Scope.declare
      rw [name, declaredPrefix?_written, value]
      cases nsPrefix : declaration.nsPrefix with
      | none => simp [bindings, Declaration.binds, Declaration.binding, nsPrefix]
      | some bound =>
        obtain ⟨-, notXmlns, notXmlnsUri, xml⟩ := soundHead.part bound nsPrefix
        by_cases isXml : bound = "xml"
        · simp [isXml, xml.mp isXml, bindings, Declaration.binds, nsPrefix]
        · have notXmlUri : declaration.uri ≠ xmlUri := fun same => isXml (xml.mpr same)
          simp only [Option.map_some]
          rw [if_neg (mt String.toList_inj.mp isXml), if_neg (mt String.toList_inj.mp notXmlns),
            if_neg (mt String.toList_inj.mp notXmlUri), if_neg (mt String.toList_inj.mp notXmlnsUri)]
          simp [bindings, Declaration.binds, Declaration.binding, nsPrefix, isXml]
    rw [List.foldlM_cons, added]
    refine (ih tailReads (fun other member => sound other (by simp [member])) _).trans ?_
    rw [List.reverse_cons, bindings_append, List.append_assoc]

end KeyholeMarkup.Xml

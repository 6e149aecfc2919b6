import KeyholeMarkup.Proofs.Xml.Built
import KeyholeMarkup.Proofs.Xml.Provenance

/-! Tags whose names are names. What the reader finds in scope for such a tag the writer finds among
the declarations it has written, so that it writes the tag with the prefixes it was read with. -/
namespace KeyholeMarkup.Xml
open KeyholeMarkup.Text

/-- A name of one or two parts, each without characters that would end it where it is written. -/
def IsPlainName (name : List Char) : Prop :=
  ∃ nsPrefix localName, (∀ part, nsPrefix = some part → IsNamePart part) ∧ IsNamePart localName ∧
    name = (qualified nsPrefix localName).toList

/-- The rule `QName` of namespaces in XML. -/
def IsQualifiedName (name : List Char) : Prop :=
  ∃ nsPrefix localName, (∀ part, nsPrefix = some part → IsNcName part) ∧ IsNcName localName ∧
    name = (qualified nsPrefix localName).toList

/-- A tag with names that meet a rule and namespaces that are read as they are written. -/
@[mk_iff]
structure WellNamed (rule : List Char → Prop) (content : List Char) : Prop where
  name : rule (tagName content)
  attributes : ∀ entry ∈ (tagAttributes true content).attributes, rule entry.name
  uris : ∀ entry ∈ (tagAttributes true content).attributes, entry.isDeclaration →
    IsUriText (String.ofList entry.value)

/-- A text with well-named tags only. -/
def WellNamedText (rule : List Char → Prop) (text : String) : Prop :=
  ∀ content ∈ (Lexemes.ofText (withoutMark text.toList)).lexemes.filterMap (·.token.tagContent?),
    WellNamed rule content

theorem IsQualifiedName.isPlainName {name : List Char} (named : IsQualifiedName name) :
    IsPlainName name := by
  obtain ⟨nsPrefix, localName, bound, proper, whole⟩ := named
  exact ⟨nsPrefix, localName, fun part same => (bound part same).isNamePart, proper.isNamePart, whole⟩

theorem WellNamedText.isPlainName {text : String} (named : WellNamedText IsQualifiedName text) :
    WellNamedText IsPlainName text := by
  intro content given
  obtain ⟨name, attributes, uris⟩ := named content given
  exact ⟨name.isPlainName, fun entry member => (attributes entry member).isPlainName, uris⟩

theorem IsPlainName.split {name : List Char} (named : IsPlainName name) :
    ∃ nsPrefix localName, splitName name = (nsPrefix.map String.toList, localName.toList) ∧
      IsNamePart localName ∧ name = (qualified nsPrefix localName).toList := by
  obtain ⟨nsPrefix, localName, bound, proper, rfl⟩ := named
  exact ⟨nsPrefix, localName, splitName_qualified bound proper, proper, rfl⟩

theorem eq_of_splitName (name : List Char) : name = match splitName name with
    | (none, localName) => localName
    | (some bound, localName) => bound ++ ':' :: localName := by
  have whole := List.takeWhile_append_dropWhile (p := (· ≠ ':')) (l := name)
  unfold splitName
  cases rest : name.dropWhile (· ≠ ':') with
  | nil => rfl
  | cons c behind =>
    have colon : c = ':' := by
      have filled : name.dropWhile (· ≠ ':') ≠ [] := by
        rw [rest]
        exact List.cons_ne_nil c behind
      have stops := List.head_dropWhile_not _ filled
      simp only [rest, List.head_cons] at stops
      simpa using stops
    rw [rest, colon] at whole
    exact whole.symm

def isQualifiedName (name : List Char) : Bool :=
  (splitName name).1.all isNcName && isNcName (splitName name).2

theorem isQualifiedName_iff {name : List Char} :
    isQualifiedName name = true ↔ IsQualifiedName name := by
  constructor
  · intro checked
    have whole := eq_of_splitName name
    unfold isQualifiedName at checked
    cases split : splitName name with
    | mk bound localName =>
    rw [split] at whole checked
    obtain ⟨boundNamed, named⟩ := (Bool.and_eq_true _ _).mp checked
    have proper : IsNcName (String.ofList localName) :=
      isNcName_iff.mp (by rwa [String.toList_ofList])
    cases bound with
    | none => exact ⟨none, _, nofun, proper, by simpa [qualified] using whole⟩
    | some bound =>
      refine ⟨some (String.ofList bound), _, ?_, proper, ?_⟩
      · rintro _ ⟨⟩
        exact isNcName_iff.mp (by rwa [String.toList_ofList])
      · simpa [qualified, Naming.written] using whole
  · intro named
    obtain ⟨nsPrefix, localName, bound, proper, rfl⟩ := named
    have split := splitName_qualified (fun part same => (bound part same).isNamePart)
      proper.isNamePart
    rw [isQualifiedName, split, isNcName_iff.mpr proper, Bool.and_true]
    cases nsPrefix with
    | none => rfl
    | some part => exact isNcName_iff.mpr (bound part rfl)

instance : DecidablePred IsQualifiedName := fun _ => decidable_of_iff _ isQualifiedName_iff

instance (rule : List Char → Prop) [DecidablePred rule] : DecidablePred (WellNamed rule) :=
  fun content => decidable_of_iff _ (wellNamed_iff rule content).symm

instance (rule : List Char → Prop) [DecidablePred rule] (text : String) :
    Decidable (WellNamedText rule text) :=
  inferInstanceAs (Decidable (∀ content ∈ (Lexemes.ofText (withoutMark
    text.toList)).lexemes.filterMap (·.token.tagContent?), WellNamed rule content))

example : ¬ WellNamedText IsQualifiedName "<a xmlns='u' xmlns:=''/>" := by decide

theorem map_ofList_toList (text : Option String) :
    (text.map String.toList).map String.ofList = text := by
  cases text <;> simp

section
variable {entry : WrittenAttribute} {declaration : Declaration} {scope current next within : Scope}
  {written : List WrittenAttribute} {entries : List (Declaration ⊕ Attribute)}

theorem name_of_declaredPrefix? {name : List Char} {bound : Option (List Char)}
    (declared : declaredPrefix? name = some bound) (uri : String) :
    name = (Declaration.written ⟨bound.map String.ofList, uri⟩).1.toList := by
  have xmlns : "xmlns".toList = ['x', 'm', 'l', 'n', 's'] := rfl
  unfold declaredPrefix? at declared
  split at declared
  · obtain rfl : none = bound := by simpa using declared
    exact xmlns.symm
  · rename_i rest
    obtain rfl : some rest = bound := by simpa using declared
    simp [Declaration.written]
  · contradiction

theorem isNamePart_of_declaredPrefix? {name bound : List Char}
    (declared : declaredPrefix? name = some (some bound)) (named : IsPlainName name) :
    IsNamePart (String.ofList bound) := by
  obtain ⟨nsPrefix, localName, split, proper, -⟩ := named.split
  have whole := name_of_declaredPrefix? declared ""
  have cut : splitName name = (some "xmlns".toList, bound) := by
    have text : name = 'x' :: 'm' :: 'l' :: 'n' :: 's' :: ':' :: bound := by
      simpa [Declaration.written] using whole
    rw [text]
    rfl
  have same : localName.toList = bound := congrArg Prod.snd (split.symm.trans cut)
  rwa [← same, String.ofList_toList]

theorem declaration?_eq (plain : IsUriText (String.ofList entry.value)) :
    entry.declaration? = (declaredPrefix? entry.name).map fun bound =>
      ⟨bound.map String.ofList, String.ofList entry.value⟩ := by
  have unchanged : normalizeValue entry.value = entry.value := by
    rw [normalizeValue_eq_self_iff]
    refine ⟨fun member => ?_, fun member => ?_, fun member => ?_⟩
    · exact (plain '\r' (by simpa using member)).2.2.2 rfl
    · exact (plain '\n' (by simpa using member)).2.2.1 rfl
    · exact (plain '\t' (by simpa using member)).2.1 rfl
  have expanded : expandReferences entry.value = .ok entry.value := by
    have escaped := expandReferences_escape entry.value
    have unescaped := escape_uri plain
    rw [String.toList_ofList] at unescaped
    rwa [unescaped] at escaped
  unfold WrittenAttribute.declaration?
  rw [unchanged, expanded]
  cases declaredPrefix? entry.name <;> rfl

theorem name_of_declaration? (read : entry.declaration? = some declaration) :
    entry.name = declaration.written.1.toList := by
  unfold WrittenAttribute.declaration? at read
  cases declared : declaredPrefix? entry.name with
  | none => simp [declared] at read
  | some bound =>
    cases value : expandReferences (normalizeValue entry.value) with
    | error fault => simp [value, Except.toOption] at read
    | ok text =>
      simp only [declared, value, Except.toOption, Option.bind_eq_bind, Option.bind_some,
        Option.pure_def, Option.some.injEq] at read
      subst read
      exact name_of_declaredPrefix? declared _

/-- A declaration that the reader accepts is sound, and it binds what it says. -/
theorem Scope.declare_of_read (read : entry.declaration? = some declaration)
    (named : IsPlainName entry.name) (plain : IsUriText (String.ofList entry.value))
    (entered : current.declare entry = .ok next) :
    declaration.Sound ∧ next = bindings [declaration] ++ current := by
  rw [declaration?_eq plain, Option.map_eq_some_iff] at read
  obtain ⟨bound, declared, rfl⟩ := read
  unfold Scope.declare at entered
  rw [declared] at entered
  cases bound with
  | none =>
    simp only [Except.ok.injEq] at entered
    subst entered
    refine ⟨⟨plain, nofun⟩, ?_⟩
    rw [bindings_singleton (by simp)]
    simp [Declaration.binding]
  | some bound =>
    have part := isNamePart_of_declaredPrefix? declared named
    simp only at entered
    split at entered
    · rename_i isXml
      split at entered
      · rename_i isXmlUri
        simp only [Except.ok.injEq] at entered
        subst entered isXml
        refine ⟨⟨plain, ?_⟩, by simp [bindings, Declaration.binds]⟩
        rintro _ ⟨⟩
        rw [isXmlUri, String.ofList_toList, String.ofList_toList]
        exact ⟨isNamePart_xml, by decide, by decide, by simp⟩
      · cases entered
    rename_i notXml
    split at entered
    · cases entered
    rename_i notXmlns
    split at entered
    · cases entered
    rename_i notXmlUri
    split at entered
    · cases entered
    rename_i notXmlnsUri
    simp only [Except.ok.injEq] at entered
    subst entered
    have apart {text : List Char} {other : String} (differs : text ≠ other.toList) :
        String.ofList text ≠ other := by
      rintro rfl
      exact differs (by rw [String.toList_ofList])
    have unlike := apart notXml
    refine ⟨⟨plain, ?_⟩, ?_⟩
    · rintro _ ⟨⟩
      exact ⟨part, apart notXmlns, apart notXmlnsUri,
        ⟨fun same => absurd same unlike, fun same => absurd same (apart notXmlUri)⟩⟩
    · rw [bindings_singleton (by simpa using unlike)]
      simp [Declaration.binding]

/-- The scope inside a tag is the one around it with the declarations of the tag. -/
theorem Scope.foldlM_declare_of_reads (reads : List.Forall₂ scope.Reads written entries)
    (named : ∀ entry ∈ written, IsPlainName entry.name)
    (uris : ∀ entry ∈ written, entry.isDeclaration → IsUriText (String.ofList entry.value))
    (entered : written.foldlM Scope.declare current = .ok within) :
    (∀ declaration ∈ entries.filterMap Sum.getLeft?, declaration.Sound) ∧
      within = bindings (entries.filterMap Sum.getLeft?).reverse ++ current := by
  induction reads generalizing current with
  | nil =>
    simp only [List.foldlM_nil, pure, Except.pure, Except.ok.injEq] at entered
    subst entered
    exact ⟨by simp, rfl⟩
  | @cons entry _ _ _ head _ ih =>
    have namedLater := fun other member => named other (List.mem_cons_of_mem _ member)
    have urisLater := fun other member => uris other (List.mem_cons_of_mem _ member)
    rw [List.foldlM_cons] at entered
    cases first : current.declare entry with
    | error fault => simp [first, bind, Except.bind] at entered
    | ok next =>
    simp only [first, bind, Except.bind] at entered
    obtain ⟨sound, scope⟩ := ih namedLater urisLater entered
    cases head with
    | declares read =>
      obtain ⟨soundFirst, same⟩ := declare_of_read read (named entry List.mem_cons_self)
        (uris entry List.mem_cons_self (WrittenAttribute.isDeclaration_of_declaration? read)) first
      simp only [List.filterMap_cons, Sum.getLeft?_inl]
      refine ⟨List.forall_mem_cons.mpr ⟨soundFirst, sound⟩, ?_⟩
      rw [scope, same, List.reverse_cons, bindings_append, List.append_assoc]
    | belongs isAttribute read =>
      have same : next = current := by
        have undeclared : declaredPrefix? entry.name = none := by
          simpa [WrittenAttribute.isDeclaration] using isAttribute
        simpa [declare, undeclared] using first.symm
      simp only [List.filterMap_cons, Sum.getLeft?_inr]
      exact ⟨sound, same ▸ scope⟩

/-- The names of the declarations in a tag are among the names in the tag. -/
theorem sublist_declarations (reads : List.Forall₂ scope.Reads written entries) :
    ((entries.filterMap Sum.getLeft?).map (·.written.1.toList)).Sublist (written.map (·.name)) := by
  induction reads with
  | nil => exact .slnil
  | cons head _ ih =>
    cases head with
    | declares read =>
      have name : _ = _ := name_of_declaration? read
      simp only [List.filterMap_cons, Sum.getLeft?_inl, List.map_cons, ← name]
      exact ih.cons_cons _
    | belongs _ _ => exact ih.cons _

/-- No prefix is declared twice in a tag. -/
theorem Tag.OpenedBy.nodup_declarations {content : List Char} {tag : Tag}
    (opened : tag.OpenedBy scope content) : (tag.declarations.map (·.nsPrefix)).Nodup := by
  obtain ⟨entries, reads, declarations, -⟩ := opened.entries
  have apart := (nodup_tagAttributes content).sublist (sublist_declarations reads)
  rw [← declarations] at apart
  rw [List.Nodup, List.pairwise_map] at apart ⊢
  refine apart.imp fun {first second} unlike same => unlike ?_
  unfold Declaration.written
  rw [same]
  cases second.nsPrefix <;> rfl

end

/-- A prefix stands for a namespace with a name or for none at all. -/
theorem Scope.exists_of_resolve {scope : Scope} {bound : List Char} {uri : Option (List Char)}
    (resolves : scope.resolve (some bound) = .ok uri) : ∃ text, uri = some text ∧ text ≠ [] := by
  unfold resolve at resolves
  simp only at resolves
  split at resolves
  · contradiction
  · rename_i binding _
    split at resolves
    · contradiction
    · rename_i filled
      simp only [Except.ok.injEq] at resolves
      exact ⟨binding.uri, resolves.symm, by simpa using filled⟩

/-- What is read of an attribute that is no declaration. -/
structure Attribute.ReadOf (entry : WrittenAttribute) (kept : Attribute) : Prop where
  written : kept.written.1.toList = entry.name
  bare : kept.nsPrefix = none ↔ kept.name.uri = none
  uri : kept.name.uri ≠ some ""
  declares : declaredPrefix? entry.name = none

section
variable {scope : Scope} {entry : WrittenAttribute} {kept : Attribute}

theorem readOf_of_attribute? (isAttribute : entry.isDeclaration = false)
    (read : scope.attribute? entry = some kept) : Attribute.ReadOf entry kept := by
  have undeclared : declaredPrefix? entry.name = none := by
    simpa [WrittenAttribute.isDeclaration] using isAttribute
  have whole := eq_of_splitName entry.name
  unfold Scope.attribute? Scope.attributeName? at read
  cases split : splitName entry.name with
  | mk bound localName =>
  rw [split] at read whole
  cases value : expandReferences (normalizeValue entry.value) with
  | error fault => cases bound <;> simp [value, Except.toOption] at read
  | ok text =>
  cases bound with
  | none =>
    obtain rfl : ⟨.plain (String.ofList localName), none, String.ofList text⟩ = kept := by
      simpa [value, Except.toOption] using read
    refine ⟨?_, by simp [Name.plain], by simp [Name.plain], undeclared⟩
    rw [whole]
    simp [Attribute.written, qualified, Name.plain]
  | some bound =>
    cases resolves : scope.resolve (some bound) with
    | error missing => simp [resolves, Except.toOption] at read
    | ok uri =>
    obtain ⟨uri, rfl, filled⟩ := Scope.exists_of_resolve resolves
    have nonempty : some (String.ofList uri) ≠ some "" := by simpa using filled
    obtain rfl : ⟨⟨some (String.ofList uri), String.ofList localName⟩, some (String.ofList bound),
        String.ofList text⟩ = kept := by
      simpa [value, resolves, Except.toOption, within_of_ne_empty nonempty] using read
    refine ⟨?_, by simp, nonempty, undeclared⟩
    rw [whole]
    simp [Attribute.written, qualified, Naming.written]

theorem Attribute.ReadOf.nsPrefix_ne (read : Attribute.ReadOf entry kept) :
    kept.nsPrefix ≠ some "xmlns" := by
  intro reserved
  have declares := read.declares
  rw [← read.written, Attribute.written, reserved] at declares
  have written : (qualified (some "xmlns") kept.name.localName).toList =
      'x' :: 'm' :: 'l' :: 'n' :: 's' :: ':' :: kept.name.localName.toList := by
    simp [qualified, Naming.written]
  rw [written] at declares
  contradiction

theorem Attribute.ReadOf.name_ne (read : Attribute.ReadOf entry kept) :
    kept.name ≠ .plain "xmlns" := by
  intro same
  have bare := read.bare.mpr (by rw [same]; rfl)
  have declares := read.declares
  have written : (qualified none "xmlns").toList = ['x', 'm', 'l', 'n', 's'] := rfl
  rw [← read.written, Attribute.written, bare, same, Name.plain, written] at declares
  contradiction

theorem readOf_of_reads {written : List WrittenAttribute} {entries : List (Declaration ⊕ Attribute)}
    (reads : List.Forall₂ scope.Reads written entries) :
    ∀ kept ∈ entries.filterMap Sum.getRight?, ∃ entry, Attribute.ReadOf entry kept := by
  induction reads with
  | nil => simp
  | cons head _ ih =>
    cases head with
    | declares _ => exact ih
    | belongs isAttribute read =>
      exact List.forall_mem_cons.mpr ⟨⟨_, readOf_of_attribute? isAttribute read⟩, ih⟩

theorem sublist_attributes {written : List WrittenAttribute}
    {entries : List (Declaration ⊕ Attribute)} (reads : List.Forall₂ scope.Reads written entries) :
    ((entries.filterMap Sum.getRight?).map (·.written.1.toList)).Sublist (written.map (·.name)) := by
  induction reads with
  | nil => exact .slnil
  | cons head _ ih =>
    cases head with
    | declares _ => exact ih.cons _
    | belongs isAttribute read =>
      have name := (readOf_of_attribute? isAttribute read).written
      simp only [List.filterMap_cons, Sum.getRight?_inr, List.map_cons, name]
      exact ih.cons_cons _

/-- No name is written twice in a tag, be it with a prefix or without. -/
theorem Tag.OpenedBy.nodup_written {content : List Char} {tag : Tag}
    (opened : tag.OpenedBy scope content) : (tag.attributes.map (·.written.1)).Nodup := by
  obtain ⟨entries, reads, -, attributes⟩ := opened.entries
  have apart := (nodup_tagAttributes content).sublist (sublist_attributes reads)
  rw [← attributes] at apart
  rw [List.Nodup, List.pairwise_map] at apart ⊢
  exact apart.imp fun unlike same => unlike (congrArg String.toList same)

theorem Tag.OpenedBy.readOf {content : List Char} {tag : Tag} (opened : tag.OpenedBy scope content) :
    ∀ kept ∈ tag.attributes, ∃ entry, Attribute.ReadOf entry kept := by
  obtain ⟨entries, reads, -, attributes⟩ := opened.entries
  rw [attributes]
  exact readOf_of_reads reads

theorem Tag.OpenedBy.uri_ne {content : List Char} {tag : Tag} (opened : tag.OpenedBy scope content) :
    tag.name.uri ≠ some "" := by
  have named := opened.name
  unfold Scope.elementName? at named
  obtain ⟨uri, -, name⟩ := Option.map_eq_some_iff.mp named
  rw [← name]
  exact Name.within_uri_ne_empty _ _

end

namespace Naming

variable {naming : Naming} {written : List WrittenAttribute}
  {entries : List (Declaration ⊕ Attribute)}

/-- An attribute that is read where the writer has written the declarations is written as before. -/
theorem Sound.attribute_of_read (sound : naming.Sound) {entry : WrittenAttribute} {kept : Attribute}
    (isAttribute : entry.isDeclaration = false) (read : naming.scope.attribute? entry = some kept)
    (named : IsPlainName entry.name) :
    naming.NamesAttribute kept.nsPrefix kept.name.uri ∧ kept.Fits := by
  obtain ⟨nsPrefix, localName, split, proper, -⟩ := named.split
  have readOf := readOf_of_attribute? isAttribute read
  unfold Scope.attribute? Scope.attributeName? at read
  rw [split] at read
  cases value : expandReferences (normalizeValue entry.value) with
  | error fault => simp [value, Except.toOption] at read
  | ok text =>
  cases nsPrefix with
  | none =>
    obtain rfl : ⟨.plain localName, none, String.ofList text⟩ = kept := by
      simpa [value, Except.toOption] using read
    exact ⟨.plain, proper, fun _ same => readOf.name_ne (congrArg Name.plain same)⟩
  | some bound =>
    cases resolves : naming.scope.resolve (some bound.toList) with
    | error missing => simp [resolves, Except.toOption] at read
    | ok uri =>
    obtain ⟨uri, rfl, filled⟩ := Scope.exists_of_resolve resolves
    have nonempty : some (String.ofList uri) ≠ some "" := by simpa using filled
    obtain rfl : ⟨⟨some (String.ofList uri), localName⟩, some bound, String.ofList text⟩ = kept := by
      simpa [resolves, value, Except.toOption, within_of_ne_empty nonempty] using read
    refine ⟨?_, proper, by rintro ⟨⟩⟩
    by_cases xml : bound = "xml"
    · subst xml
      obtain rfl : xmlUri.toList = uri := by simpa using sound.resolve_xml.symm.trans resolves
      rw [String.ofList_toList]
      exact .xml
    · have notXmlns : bound ≠ "xmlns" := fun same => readOf.nsPrefix_ne (congrArg some same)
      have found := sound.lookup?_of_resolve xml notXmlns resolves
      have apart := (sound _ (mem_of_lookup? found)).part bound rfl
      exact .bound (fun same => xml (apart.2.2.2.mpr same)) found

theorem Sound.attributes_of_reads (sound : naming.Sound)
    (reads : List.Forall₂ naming.scope.Reads written entries)
    (named : ∀ entry ∈ written, IsPlainName entry.name) :
    ∀ kept ∈ entries.filterMap Sum.getRight?,
      naming.NamesAttribute kept.nsPrefix kept.name.uri ∧ kept.Fits := by
  induction reads with
  | nil => simp
  | cons head _ ih =>
    have each := ih fun other member => named other (List.mem_cons_of_mem _ member)
    cases head with
    | declares _ => exact each
    | belongs isAttribute read =>
      have first := sound.attribute_of_read isAttribute read (named _ List.mem_cons_self)
      exact List.forall_mem_cons.mpr ⟨first, each⟩

/-- The name of an element is written as before, too. Only for the prefix `xml`, which needs no
declaration where it is read, there may be none where it is written. -/
theorem Sound.element_of_read (sound : naming.Sound) {name : List Char} {read : Name}
    {nsPrefix : Option String} (resolved : naming.scope.elementName? name = some read)
    (split : nsPrefix = (splitName name).1.map String.ofList) (named : IsPlainName name)
    (notXmlns : nsPrefix ≠ some "xmlns") :
    IsNamePart read.localName ∧ (naming.NamesElement nsPrefix read.uri ∨
      nsPrefix = some "xml" ∧ read.uri = some xmlUri ∧ naming.lookup? (some "xml") = none) := by
  obtain ⟨own, localName, parts, proper, -⟩ := named.split
  rw [parts, map_ofList_toList] at split
  subst split
  unfold Scope.elementName? at resolved
  rw [parts] at resolved
  cases nsPrefix with
  | none =>
    have bare := sound.resolve_none
    simp only [Option.map_none, bare, Except.toOption, Option.map_some, Option.some.injEq,
      String.ofList_toList, map_ofList_toList] at resolved
    subst resolved
    refine ⟨proper, .inl ?_⟩
    cases found : naming.lookup? none with
    | none => exact .unbound found
    | some uri =>
      obtain ⟨_, _, _, nonempty⟩ := lookup?_eq_some found
      rw [within_of_ne_empty (by simpa using nonempty)]
      exact .default found
  | some bound =>
    cases resolves : naming.scope.resolve (some bound.toList) with
    | error missing => simp [resolves, Except.toOption] at resolved
    | ok uri =>
    obtain ⟨uri, rfl, filled⟩ := Scope.exists_of_resolve resolves
    have nonempty : some (String.ofList uri) ≠ some "" := by simpa using filled
    obtain rfl : ⟨some (String.ofList uri), localName⟩ = read := by
      simpa [resolves, Except.toOption, within_of_ne_empty nonempty] using resolved
    refine ⟨proper, ?_⟩
    by_cases xml : bound = "xml"
    · subst xml
      obtain rfl : xmlUri.toList = uri := by simpa using sound.resolve_xml.symm.trans resolves
      cases found : naming.lookup? (some "xml") with
      | none => exact .inr ⟨rfl, by rw [String.ofList_toList], rfl⟩
      | some uri =>
        obtain rfl := sound.uri_of_lookup?_xml found
        rw [String.ofList_toList]
        exact .inl (.bound found)
    · exact .inl (.bound (sound.lookup?_of_resolve xml (by simpa using notXmlns) resolves))

end Naming

end KeyholeMarkup.Xml

import KeyholeMarkup.Proofs.Xml.InScope
import KeyholeMarkup.Proofs.Xml.Verbatim
import KeyholeMarkup.Proofs.Xml.WellNamed

/-! Names and the declarations that are recorded with them. Names are resolved by the declarations as
they are written, while they are recorded as they are read, so that the two agree for namespaces that
are read as they are written. -/
namespace KeyholeMarkup.Xml

/-- What a prefix stands for is the namespace that has been found for it, read as a value. -/
structure DeclaredAs (around : List (List Declaration)) (nsPrefix uri : Option String) : Prop where
  reads : standsFor? around nsPrefix = uri.bind readValue?
  bound : nsPrefix ≠ none → uri ≠ none
  xml : nsPrefix = some "xml" → uri = some xmlUri

/-- The two are one namespace exactly if there is nothing in it to be replaced. -/
theorem DeclaredAs.agree_iff {around : List (List Declaration)} {nsPrefix uri : Option String}
    (declared : DeclaredAs around nsPrefix uri) :
    standsFor? around nsPrefix = uri ↔ ∀ text, uri = some text → IsVerbatim text := by
  rw [declared.reads]
  cases uri with
  | none => simp
  | some text => simp [readValue?_eq_some_self_iff]

/-- A binding of the reader and the declaration that has been recorded for it. -/
structure Binding.RecordedAs (binding : Binding) (declaration : Declaration) : Prop where
  nsPrefix : declaration.nsPrefix =
    if binding.bound = [] then none else some (String.ofList binding.bound)
  uri : readValue? (String.ofList binding.uri) = some declaration.uri

/-- A scope with the declarations that have been recorded in it, latest first. The prefix `xml` may
be declared as what it stands for anyhow, and is not bound again. -/
structure Scope.Mirrors (scope : Scope) (declared : List Declaration) : Prop where
  bindings : ∃ own, scope = own ++ Scope.predefined ∧
    List.Forall₂ Binding.RecordedAs own (declared.filter (·.nsPrefix != some "xml"))
  xml : ∀ declaration ∈ declared, declaration.nsPrefix = some "xml" → declaration.uri = xmlUri

theorem isVerbatim_xmlUri : IsVerbatim xmlUri := by decide

section
variable {scope next within : Scope} {declared : List Declaration} {declaration : Declaration}
  {entry : WrittenAttribute}

theorem find?_of_forall₂ {α β : Type} {related : α → β → Prop} {firsts : List α} {seconds : List β}
    {wanted : α → Bool} {other : β → Bool} (all : List.Forall₂ related firsts seconds)
    (agree : ∀ first second, related first second → wanted first = other second) :
    firsts.find? wanted = none ∧ seconds.find? other = none ∨ ∃ first second,
      firsts.find? wanted = some first ∧ seconds.find? other = some second ∧
        related first second := by
  induction all with
  | nil => exact .inl ⟨rfl, rfl⟩
  | @cons first second _ _ head _ ih =>
    have same := agree first second head
    cases found : wanted first with
    | true => exact .inr ⟨first, second, by simp [found], by simp [← same, found], head⟩
    | false => simpa [found, ← same] using ih

theorem mirrors_predefined : Scope.predefined.Mirrors [] := ⟨⟨[], rfl, .nil⟩, by simp⟩

theorem exists_of_declaration? (read : entry.declaration? = some declaration) :
    ∃ bound, declaredPrefix? entry.name = some bound ∧
      declaration.nsPrefix = bound.map String.ofList ∧
      readValue? (String.ofList entry.value) = some declaration.uri := by
  unfold WrittenAttribute.declaration? at read
  cases declares : declaredPrefix? entry.name with
  | none => simp [declares] at read
  | some bound =>
  cases value : expandReferences (normalizeValue entry.value) with
  | error fault => simp [value, Except.toOption] at read
  | ok text =>
  simp only [declares, value, Except.toOption, Option.bind_eq_bind, Option.bind_some,
    Option.pure_def, Option.some.injEq] at read
  subst read
  exact ⟨bound, rfl, rfl, by simp [readValue?, value, Except.toOption]⟩

/-- A declaration is bound as it is written and recorded as it is read. -/
theorem Scope.Mirrors.declare (mirrors : scope.Mirrors declared)
    (read : entry.declaration? = some declaration) (named : declaration.nsPrefix ≠ some "")
    (entered : scope.declare entry = .ok next) : next.Mirrors (declaration :: declared) := by
  obtain ⟨bound, declares, nsPrefix, uri⟩ := exists_of_declaration? read
  obtain ⟨own, rfl, recorded⟩ := mirrors.bindings
  unfold Scope.declare at entered
  rw [declares] at entered
  have ordinary {binding : Binding} (same : binding.uri = entry.value)
      (prefixed : declaration.nsPrefix =
        if binding.bound = [] then none else some (String.ofList binding.bound))
      (other : declaration.nsPrefix ≠ some "xml") :
      Mirrors (binding :: (own ++ predefined)) (declaration :: declared) := by
    have kept : (declaration.nsPrefix != some "xml") = true := by simpa using other
    refine ⟨⟨binding :: own, rfl, ?_⟩, List.forall_mem_cons.mpr ⟨fun xml => absurd xml other,
      mirrors.xml⟩⟩
    rw [List.filter_cons_of_pos (by simpa using kept)]
    exact .cons ⟨prefixed, same ▸ uri⟩ recorded
  cases bound with
  | none =>
    simp only [Except.ok.injEq] at entered
    subst entered
    exact ordinary rfl nsPrefix (by simp [nsPrefix])
  | some bound =>
    rw [Option.map_some] at nsPrefix
    simp only at entered
    split at entered
    · rename_i isXml
      split at entered
      · rename_i isXmlUri
        simp only [Except.ok.injEq] at entered
        subst entered
        rw [isXml, String.ofList_toList] at nsPrefix
        rw [isXmlUri, String.ofList_toList,
          readValue?_eq_some_self_iff.mpr isVerbatim_xmlUri, Option.some.injEq] at uri
        refine ⟨⟨own, rfl, ?_⟩, List.forall_mem_cons.mpr ⟨fun _ => uri.symm, mirrors.xml⟩⟩
        rwa [List.filter_cons_of_neg (by simp [nsPrefix])]
      · cases entered
    rename_i notXml
    split at entered
    · cases entered
    split at entered
    · cases entered
    split at entered
    · cases entered
    simp only [Except.ok.injEq] at entered
    subst entered
    have filled : bound ≠ [] := by
      rintro rfl
      exact named nsPrefix
    refine ordinary rfl ?_ ?_
    · rw [nsPrefix, if_neg filled]
    · rw [nsPrefix, ne_eq, Option.some.injEq]
      rintro same
      exact notXml (by rw [← same, String.toList_ofList])

theorem Scope.Mirrors.foldlM_declare {written : List WrittenAttribute}
    {entries : List (Declaration ⊕ Attribute)} {reader : Scope}
    (reads : List.Forall₂ reader.Reads written entries) (mirrors : scope.Mirrors declared)
    (named : ∀ declaration ∈ entries.filterMap Sum.getLeft?, declaration.nsPrefix ≠ some "")
    (entered : written.foldlM Scope.declare scope = .ok within) :
    within.Mirrors ((entries.filterMap Sum.getLeft?).reverse ++ declared) := by
  induction reads generalizing scope declared with
  | nil =>
    simp only [List.foldlM_nil, pure, Except.pure, Except.ok.injEq] at entered
    subst entered
    exact mirrors
  | @cons entry _ _ _ head _ ih =>
    rw [List.foldlM_cons] at entered
    cases first : scope.declare entry with
    | error fault => simp [first, bind, Except.bind] at entered
    | ok next =>
    simp only [first, bind, Except.bind] at entered
    cases head with
    | @declares declaration read =>
      rw [List.filterMap_cons_some (by rfl)] at named ⊢
      rw [List.reverse_cons, List.append_assoc]
      exact ih (mirrors.declare read (named declaration List.mem_cons_self) first)
        (fun other member => named other (List.mem_cons_of_mem _ member)) entered
    | belongs isAttribute read =>
      have undeclared : declaredPrefix? entry.name = none := by
        simpa [WrittenAttribute.isDeclaration] using isAttribute
      have same : scope = next := by simpa [Scope.declare, undeclared] using first
      rw [List.filterMap_cons_none (by rfl)] at named ⊢
      exact ih (same ▸ mirrors) named entered

/-- The bindings that a prefix, or names without one, is looked for among. -/
def Binding.answers (bound : Option (List Char)) (binding : Binding) : Bool :=
  match bound with
  | none => binding.bound.isEmpty
  | some bound => !binding.bound.isEmpty && binding.bound == bound

theorem Binding.RecordedAs.answers_eq {binding : Binding} (recorded : binding.RecordedAs declaration)
    (bound : Option (List Char)) :
    binding.answers bound = (declaration.nsPrefix == bound.map String.ofList) := by
  rw [recorded.nsPrefix]
  cases bound with
  | none => cases empty : binding.bound <;> simp [answers, empty]
  | some bound =>
    by_cases empty : binding.bound = []
    · simp [answers, empty]
    · rw [Bool.eq_iff_iff]
      simp [answers, empty, String.ofList_inj]

/-- Of a prefix that is not predefined the nearest binding is that of the nearest declaration. -/
theorem Scope.Mirrors.find? (mirrors : scope.Mirrors declared) {bound : Option (List Char)}
    (notXml : bound ≠ some "xml".toList) (notXmlns : bound ≠ some "xmlns".toList) :
    scope.find? (·.answers bound) = none ∧
        declared.find? (·.nsPrefix == bound.map String.ofList) = none ∨
      ∃ binding declaration, scope.find? (·.answers bound) = some binding ∧
        declared.find? (·.nsPrefix == bound.map String.ofList) = some declaration ∧
        binding.RecordedAs declaration := by
  obtain ⟨own, rfl, recorded⟩ := mirrors.bindings
  have predefined : Scope.predefined.find? (·.answers bound) = none := by
    cases bound with
    | none => rfl
    | some bound =>
      have apart {text : String} (other : some bound ≠ some text.toList) :
          (text.toList == bound) = false := by simpa using fun same => other (by rw [same])
      simp only [Scope.predefined, Binding.answers, List.find?_cons, apart notXml, apart notXmlns,
        Bool.and_false, List.find?_nil]
  have same : (declared.filter (·.nsPrefix != some "xml")).find?
      (·.nsPrefix == bound.map String.ofList) =
        declared.find? (·.nsPrefix == bound.map String.ofList) := by
    rw [List.find?_filter]
    apply List.find?_congr
    intro declaration _
    by_cases isXml : declaration.nsPrefix = some "xml"
    · have other : bound.map String.ofList ≠ some "xml" := by
        cases bound with
        | none => simp
        | some bound =>
          rintro same
          apply notXml
          rw [← Option.some.inj same, String.toList_ofList]
      simp [isXml, Ne.symm other]
    · rw [Bool.eq_iff_iff]
      simp [isXml]
  rw [List.find?_append, predefined, Option.or_none, ← same]
  exact find?_of_forall₂ recorded fun binding declaration known => known.answers_eq bound

theorem Scope.resolve_eq (scope : Scope) (bound : Option (List Char)) : scope.resolve bound =
    match (scope.find? (·.answers bound)).filter (·.uri != []) with
    | some binding => .ok (some binding.uri)
    | none => bound.elim (.ok none) .error := by
  unfold Scope.resolve
  cases bound with
  | none =>
    simp only [Binding.answers]
    cases scope.find? (·.bound.isEmpty) with
    | none => rfl
    | some binding => by_cases empty : binding.uri = [] <;> simp [empty, Option.filter]
  | some bound =>
    simp only [Binding.answers]
    cases scope.find? fun binding => !binding.bound.isEmpty && binding.bound == bound with
    | none => rfl
    | some binding => by_cases empty : binding.uri = [] <;> simp [empty, Option.filter]

theorem Scope.Mirrors.find?_xml (mirrors : scope.Mirrors declared) :
    scope.find? (·.answers (some "xml".toList)) = some ⟨"xml".toList, xmlUri.toList⟩ := by
  obtain ⟨own, rfl, recorded⟩ := mirrors.bindings
  have absent : own.find? (·.answers (some "xml".toList)) = none := by
    obtain ⟨absent, -⟩ | ⟨_, declaration, -, found, -⟩ :=
      find?_of_forall₂ recorded fun binding declaration known =>
        known.answers_eq (some "xml".toList)
    · exact absent
    · have kept := (List.mem_filter.mp (List.mem_of_find?_eq_some found)).2
      have same := List.find?_some found
      simp at kept same
      contradiction
  rw [List.find?_append, absent]
  rfl

theorem standsFor?_of_nearest {around : List (List Declaration)} {nsPrefix : Option String}
    (nearest : nearest? around nsPrefix = some declaration) :
    standsFor? around nsPrefix = if declaration.uri = "" then none else some declaration.uri := by
  rw [standsFor?, nearest]

/-- What a prefix is bound to and what it is recorded to stand for. -/
theorem Scope.Mirrors.resolve {around : List (List Declaration)}
    (mirrors : scope.Mirrors (around.flatMap List.reverse)) {bound uri : Option (List Char)}
    (unreserved : bound ≠ some "xmlns".toList) (resolves : scope.resolve bound = .ok uri) :
    DeclaredAs around (bound.map String.ofList) (uri.map String.ofList) := by
  rw [Scope.resolve_eq] at resolves
  by_cases isXml : bound = some "xml".toList
  · subst isXml
    have nonempty : xmlUri ≠ "" := by decide
    have bindsXml : (some (⟨"xml".toList, xmlUri.toList⟩ : Binding)).filter (·.uri != []) =
        some ⟨"xml".toList, xmlUri.toList⟩ := by simp [Option.filter, nonempty]
    rw [mirrors.find?_xml, bindsXml] at resolves
    obtain rfl : some xmlUri.toList = uri := Except.ok.inj resolves
    have read := readValue?_eq_some_self_iff.mpr isVerbatim_xmlUri
    refine ⟨?_, by simp, by simp⟩
    simp only [Option.map_some, String.ofList_toList, Option.bind_some, read]
    cases found : nearest? around (some "xml") with
    | none => simp [standsFor?, found]
    | some declaration =>
      have prefixed : declaration.nsPrefix = some "xml" := by simpa using List.find?_some found
      have isXmlUri := mirrors.xml declaration (List.mem_of_find?_eq_some found) prefixed
      rw [standsFor?_of_nearest found, isXmlUri, if_neg nonempty]
  have notXml : bound.map String.ofList ≠ some "xml" := by
    cases bound with
    | none => simp
    | some bound =>
      rintro same
      apply isXml
      rw [← Option.some.inj same, String.toList_ofList]
  have ofNone (undeclared : standsFor? around none = none)
      (resolves : bound.elim (.ok none) .error = Except.ok uri) :
      DeclaredAs around (bound.map String.ofList) (uri.map String.ofList) := by
    cases bound with
    | some bound => contradiction
    | none =>
      obtain rfl : none = uri := Except.ok.inj resolves
      exact ⟨undeclared, by simp, by simp⟩
  obtain ⟨absent, undeclared⟩ | ⟨binding, declaration, found, nearest, recorded⟩ :=
    mirrors.find? isXml unreserved
  · rw [absent, Option.filter_none] at resolves
    refine ofNone ?_ resolves
    cases bound with
    | some bound => contradiction
    | none =>
      have nearest : nearest? around none = none := undeclared
      simp [standsFor?, nearest]
  · by_cases empty : binding.uri = []
    · have takenBack : declaration.uri = "" := by
        have read := recorded.uri
        rw [empty] at read
        exact (Option.some.inj read).symm
      have none' : (some binding).filter (·.uri != []) = none := by simp [Option.filter, empty]
      rw [found, none'] at resolves
      refine ofNone ?_ resolves
      cases bound with
      | some bound => contradiction
      | none => exact (standsFor?_of_nearest nearest).trans (if_pos takenBack)
    · have stands : declaration.uri ≠ "" := by
        intro takenBack
        have read := recorded.uri
        rw [takenBack] at read
        exact readValue?_ne_empty (by simpa using empty) read
      have kept : (some binding).filter (·.uri != []) = some binding := by
        simp [Option.filter, empty]
      rw [found, kept] at resolves
      obtain rfl : some binding.uri = uri := Except.ok.inj resolves
      refine ⟨?_, by simp, fun xml => absurd xml notXml⟩
      rw [standsFor?_of_nearest nearest, if_neg stands]
      exact recorded.uri.symm

theorem Scope.resolve_ne_empty {bound uri : Option (List Char)}
    (resolves : scope.resolve bound = .ok uri) : uri.map String.ofList ≠ some "" := by
  rw [Scope.resolve_eq] at resolves
  split at resolves
  · rename_i binding found
    obtain rfl := Except.ok.inj resolves
    simpa using (Option.filter_eq_some_iff.mp found).2
  · cases bound with
    | none => simp [← Except.ok.inj resolves]
    | some bound => contradiction

end

section
variable {scope within : Scope} {around : List (List Declaration)} {tag : Tag}
  {content : List Char} {entry : WrittenAttribute} {kept : Attribute}

theorem Scope.Mirrors.elementName (mirrors : within.Mirrors (around.flatMap List.reverse))
    (opened : tag.OpenedBy within content) (unreserved : tag.nsPrefix ≠ some "xmlns") :
    DeclaredAs around tag.nsPrefix tag.name.uri := by
  have named := opened.name
  unfold Scope.elementName? at named
  cases resolves : within.resolve (splitName (tagName content)).1 with
  | error missing => simp [resolves, Except.toOption] at named
  | ok uri =>
  simp only [resolves, Except.toOption, Option.map_some, Option.some.injEq] at named
  rw [opened.nsPrefix] at unreserved ⊢
  rw [← named, within_of_ne_empty (Scope.resolve_ne_empty resolves)]
  refine mirrors.resolve (fun reserved => unreserved ?_) resolves
  rw [reserved, Option.map_some, String.ofList_toList]

/-- A name with the prefix `xmlns` is that of a declaration. -/
theorem isDeclaration_of_splitName (split : (splitName entry.name).1 = some "xmlns".toList) :
    entry.isDeclaration = true := by
  have whole := eq_of_splitName entry.name
  cases parts : splitName entry.name with
  | mk bound localName =>
    rw [parts] at whole split
    obtain rfl : bound = some "xmlns".toList := split
    rw [WrittenAttribute.isDeclaration, whole]
    rfl

theorem Scope.Mirrors.attribute (mirrors : within.Mirrors (around.flatMap List.reverse))
    (isAttribute : entry.isDeclaration = false) (read : within.attribute? entry = some kept) :
    (kept.nsPrefix = none → kept.name.uri = none) ∧
      (kept.nsPrefix ≠ none → DeclaredAs around kept.nsPrefix kept.name.uri) := by
  have unreserved : (splitName entry.name).1 ≠ some "xmlns".toList := fun split => by
    simp [isDeclaration_of_splitName split] at isAttribute
  unfold Scope.attribute? Scope.attributeName? at read
  cases parts : splitName entry.name with
  | mk bound localName =>
  rw [parts] at read unreserved
  cases value : expandReferences (normalizeValue entry.value) with
  | error fault => cases bound <;> simp [value, Except.toOption] at read
  | ok text =>
  cases bound with
  | none =>
    obtain rfl : ⟨.plain (String.ofList localName), none, String.ofList text⟩ = kept := by
      simpa [value, Except.toOption] using read
    exact ⟨fun _ => rfl, fun prefixed => absurd rfl prefixed⟩
  | some bound =>
    cases resolves : within.resolve (some bound) with
    | error missing => simp [resolves, Except.toOption] at read
    | ok uri =>
    obtain rfl : ⟨⟨uri.map String.ofList, String.ofList localName⟩, some (String.ofList bound),
        String.ofList text⟩ = kept := by
      simpa [value, resolves, Except.toOption,
        within_of_ne_empty (Scope.resolve_ne_empty resolves)] using read
    exact ⟨by rintro ⟨⟩, fun _ => mirrors.resolve unreserved resolves⟩

/-- The declarations of a tag are recorded as the scope takes them. -/
theorem Scope.Mirrors.enter (mirrors : scope.Mirrors (around.flatMap List.reverse))
    (opened : tag.OpenedBy within content) (entered : scope.enter content = .ok within)
    (named : ∀ declaration ∈ tag.declarations, declaration.nsPrefix ≠ some "") :
    within.Mirrors ((tag.declarations :: around).flatMap List.reverse) := by
  obtain ⟨entries, reads, declarations, -⟩ := opened.entries
  rw [Scope.enter, tagAttributes_false opened.complete] at entered
  rw [declarations] at named ⊢
  exact mirrors.foldlM_declare reads named entered

end

/-- What stands in a tag is in the namespaces that are declared for it, read as values. Attributes
without a prefix are in none. -/
structure TagWithin.Recorded (within : TagWithin) : Prop where
  name : DeclaredAs within.around within.tag.nsPrefix within.tag.name.uri
  plain : ∀ entry ∈ within.tag.attributes, entry.nsPrefix = none → entry.name.uri = none
  prefixed : ∀ entry ∈ within.tag.attributes, entry.nsPrefix ≠ none →
    DeclaredAs within.around entry.nsPrefix entry.name.uri

/-- What stands in a tag is in the namespaces that are recorded for it. -/
structure TagWithin.Agrees (within : TagWithin) : Prop where
  name : standsFor? within.around within.tag.nsPrefix = within.tag.name.uri
  attributes : ∀ entry ∈ within.tag.attributes, entry.name.uri =
    if entry.nsPrefix = none then none else standsFor? within.around entry.nsPrefix

/-- All namespaces of what stands in a tag are read as they are written. -/
def Tag.IsVerbatim (tag : Tag) : Prop :=
  ∀ uri ∈ tag.uris, Xml.IsVerbatim uri

/-- A tag that may be written with the prefixes it has: the prefix of declarations is not its own,
and it declares no empty one. -/
def Tag.Prefixed (tag : Tag) : Prop :=
  tag.nsPrefix ≠ some "xmlns" ∧ ∀ declaration ∈ tag.declarations, declaration.nsPrefix ≠ some ""

theorem TagWithin.Recorded.agrees_iff {within : TagWithin} (recorded : within.Recorded) :
    within.Agrees ↔ within.tag.IsVerbatim := by
  have each : ∀ entry ∈ within.tag.attributes, (entry.name.uri =
      if entry.nsPrefix = none then none else standsFor? within.around entry.nsPrefix) ↔
        ∀ uri, entry.name.uri = some uri → Xml.IsVerbatim uri := by
    intro entry member
    by_cases bare : entry.nsPrefix = none
    · simp [bare, recorded.plain entry member bare]
    · rw [if_neg bare, ← (recorded.prefixed entry member bare).agree_iff, eq_comm]
  constructor
  · rintro ⟨name, attributes⟩ uri member
    obtain own | other := List.mem_append.mp member
    · exact recorded.name.agree_iff.mp name uri (by simpa using own)
    · obtain ⟨entry, listed, same⟩ := List.mem_filterMap.mp other
      exact (each entry listed).mp (attributes entry listed) uri same
  · intro verbatim
    refine ⟨recorded.name.agree_iff.mpr fun uri same => verbatim uri (by simp [Tag.uris, same]), ?_⟩
    intro entry member
    refine (each entry member).mpr fun uri same => verbatim uri ?_
    exact List.mem_append_right _ (List.mem_filterMap.mpr ⟨entry, member, same⟩)

theorem Scope.Mirrors.attributes {written : List WrittenAttribute}
    {entries : List (Declaration ⊕ Attribute)} {within : Scope} {around : List (List Declaration)}
    (mirrors : within.Mirrors (around.flatMap List.reverse))
    (reads : List.Forall₂ within.Reads written entries) :
    ∀ entry ∈ entries.filterMap Sum.getRight?, (entry.nsPrefix = none → entry.name.uri = none) ∧
      (entry.nsPrefix ≠ none → DeclaredAs around entry.nsPrefix entry.name.uri) := by
  induction reads with
  | nil => simp
  | cons head _ ih =>
    cases head with
    | declares _ => exact ih
    | belongs isAttribute read =>
      exact List.forall_mem_cons.mpr ⟨mirrors.attribute isAttribute read, ih⟩

theorem Tag.OpenedBy.recorded {tag : Tag} {within : Scope} {content : List Char}
    {around : List (List Declaration)} (opened : tag.OpenedBy within content)
    (mirrors : within.Mirrors (around.flatMap List.reverse))
    (unreserved : tag.nsPrefix ≠ some "xmlns") : TagWithin.Recorded ⟨tag, around⟩ := by
  obtain ⟨entries, reads, -, attributes⟩ := opened.entries
  have each := mirrors.attributes reads
  rw [← attributes] at each
  exact ⟨mirrors.elementName opened unreserved, fun entry member => (each entry member).1,
    fun entry member => (each entry member).2⟩

theorem Content.ReadFrom.recorded {given : List Char → Prop} {scope : Scope} {content : Content}
    (read : content.ReadFrom given scope) {around : List (List Declaration)}
    (mirrors : scope.Mirrors (around.flatMap List.reverse))
    (written : ∀ tag ∈ content.tags, tag.Prefixed) :
    ∀ within ∈ content.tagsWithin around, within.Recorded := by
  induction read generalizing around with
  | empty => simp [tagsWithin]
  | comment _ _ ih => exact ih mirrors written
  | @element _ _ _ tag inside rest _ entered opened _ _ _ ihInner ihRest =>
    have own : tag.Prefixed := written tag (by simp [Content.tags])
    have inner := mirrors.enter opened entered own.2
    simp only [tagsWithin, List.cons_append, List.forall_mem_cons, List.forall_mem_append]
    exact ⟨opened.recorded inner own.1,
      ihInner inner fun other member => written other (by simp [Content.tags, member]),
      ihRest mirrors fun other member => written other (by simp [Content.tags, member])⟩

/-- Every name is in the namespace of the nearest declaration that is recorded for its prefix, once
what has been written for it is read as a value; the two are the same where there is nothing to be
replaced in it. -/
theorem recorded_of_parse {file : Nat} {text : String} {document : Document}
    (parsed : parse file text = .ok document)
    (written : ∀ tag ∈ document.root.tags, tag.Prefixed) :
    ∀ within ∈ document.root.tagsWithin,
      within.Recorded ∧ (within.Agrees ↔ within.tag.IsVerbatim) := by
  have given : document.ReadFrom fun _ => True := readFrom_of_parse parsed fun _ _ _ _ => trivial
  intro within member
  have recorded : within.Recorded := by
    refine Content.ReadFrom.recorded given.root (show Scope.Mirrors _ ([].flatMap List.reverse) from
      mirrors_predefined) ?_ within ?_
    · simpa [Content.cons, Content.tags, Element.tags] using written
    · simpa [Content.cons, Content.tagsWithin, Element.tagsWithin] using member
  exact ⟨recorded, recorded.agrees_iff⟩

theorem recorded_of_parse_reference :
    ∃ document, parse 0 "<a xmlns='u&amp;v' xmlns:p='w'><p:b p:c='1' xmlns='' d='2'/></a>" =
        .ok document ∧
      (∀ tag ∈ document.root.tags, tag.Prefixed) ∧
      ∀ within ∈ document.root.tagsWithin,
        within.Recorded ∧ (within.Agrees ↔ within.tag.IsVerbatim) := by
  have parsed : parse 0 "<a xmlns='u&amp;v' xmlns:p='w'><p:b p:c='1' xmlns='' d='2'/></a>" =
      .ok ⟨[], ⟨⟨⟨some "u&amp;v", "a"⟩, none, [⟨none, "u&v"⟩, ⟨some "p", "w"⟩], [], none,
          some ⟨0, 0, 64⟩⟩,
        .element ⟨⟨some "w", "b"⟩, some "p", [⟨none, ""⟩],
          [⟨⟨some "w", "c"⟩, some "p", "1"⟩, ⟨⟨none, "d"⟩, none, "2"⟩], none,
          some ⟨0, 31, 60⟩⟩ .empty .empty⟩, []⟩ := by
    rfl
  have written : ∀ tag ∈ [(⟨⟨some "u&amp;v", "a"⟩, none, [⟨none, "u&v"⟩, ⟨some "p", "w"⟩], [],
        none, some ⟨0, 0, 64⟩⟩ : Tag), ⟨⟨some "w", "b"⟩, some "p", [⟨none, ""⟩],
          [⟨⟨some "w", "c"⟩, some "p", "1"⟩, ⟨⟨none, "d"⟩, none, "2"⟩], none,
          some ⟨0, 31, 60⟩⟩], tag.Prefixed := by
    simp [Tag.Prefixed]
  exact ⟨_, parsed, written, recorded_of_parse parsed written⟩

end KeyholeMarkup.Xml

import KeyholeMarkup.Proofs.Schema.Resolved
import KeyholeMarkup.Schema.Load

/-! Prefixes that a content takes from the declarations around it. References are resolved the same
by any declarations that agree on these, so that a declaration can be moved inwards to an element
with all its uses. -/
namespace KeyholeMarkup.Schema
open KeyholeMarkup.Storage KeyholeMarkup.Text KeyholeMarkup.Xml

/-- The prefix of a reference as it is written, or none. -/
def writtenPrefix (value : String) : Option String :=
  let written := trim value.toList
  (if written.contains ':' then some (written.takeWhile (· ≠ ':')) else none).map String.ofList

/-- The attributes that hold references. -/
def referenceAttributes : List String := ["ref", "type", "base", "substitutionGroup"]

/-- The prefixes of the references in a tag. -/
def prefixesIn (tag : Tag) : List (Option String) :=
  referenceAttributes.filterMap fun attributeName =>
    (tag.attribute? attributeName).map writtenPrefix

def Declares (tag : Tag) (nsPrefix : Option String) : Prop :=
  ∃ declaration ∈ tag.declarations, declaration.nsPrefix = nsPrefix

instance (tag : Tag) (nsPrefix : Option String) : Decidable (Declares tag nsPrefix) :=
  inferInstanceAs (Decidable (∃ declaration ∈ tag.declarations, declaration.nsPrefix = nsPrefix))

/-- The prefixes of references in a content that no element in it declares for them. -/
def freePrefixes : Content → List (Option String)
  | .empty => []
  | .comment _ rest => freePrefixes rest
  | .element tag inner rest =>
    (if inSchema tag then
      (prefixesIn tag ++ freePrefixes inner).filter fun nsPrefix => ¬ Declares tag nsPrefix
    else []) ++ freePrefixes rest

/-- The declarations around agree on what a prefix stands for. -/
def AgreeOn (nsPrefix : Option String) (around around' : List (List Declaration)) : Prop :=
  (Bindings.around around).lookup nsPrefix = (Bindings.around around').lookup nsPrefix

section
variable {settings : Settings} {tag : Tag} {nsPrefix : Option String}
  {around around' : List (List Declaration)} {declaration : Declaration}

theorem nearest?_cons (declared : List Declaration) : nearest? (declared :: around) nsPrefix =
    (declared.reverse.find? (·.nsPrefix == nsPrefix)).or (nearest? around nsPrefix) := by
  rw [nearest?, List.flatMap_cons, List.find?_append]
  rfl

theorem find?_of_not_declares (other : ¬ Declares tag nsPrefix) :
    tag.declarations.reverse.find? (·.nsPrefix == nsPrefix) = none := by
  simpa [Declares] using other

theorem agreeOn_cons (outer : Declares tag nsPrefix ∨ AgreeOn nsPrefix around around') :
    AgreeOn nsPrefix (tag.declarations :: around) (tag.declarations :: around') := by
  unfold AgreeOn at *
  rw [Bindings.lookup_around, Bindings.lookup_around] at *
  rw [nearest?_cons, nearest?_cons]
  cases found : tag.declarations.reverse.find? (·.nsPrefix == nsPrefix) with
  | some declaration => rfl
  | none =>
    refine outer.resolve_left ?_
    simpa [Declares] using found

/-- A reference depends on the declarations in scope by its prefix alone. -/
theorem reference_congr {attributeName : String}
    (agree : ∀ value, tag.attribute? attributeName = some value →
      AgreeOn (writtenPrefix value) around around') :
    reference settings (.around around) tag attributeName =
      reference settings (.around around') tag attributeName := by
  unfold reference
  cases given : tag.attribute? attributeName with
  | none => rfl
  | some value =>
    have same := agree value given
    simp only [AgreeOn, writtenPrefix] at same
    simp only [same]

theorem mem_prefixesIn {attributeName value : String} (listed : attributeName ∈ referenceAttributes)
    (given : tag.attribute? attributeName = some value) : writtenPrefix value ∈ prefixesIn tag :=
  List.mem_filterMap.mpr ⟨attributeName, listed, by rw [given]; rfl⟩

theorem within_congr (agree : ∀ nsPrefix ∈ prefixesIn tag, AgreeOn nsPrefix around around') :
    References.within settings around tag = References.within settings around' tag := by
  have same (attributeName : String) (listed : attributeName ∈ referenceAttributes) :
      reference settings (.around around) tag attributeName =
        reference settings (.around around') tag attributeName :=
    reference_congr fun value given => agree _ (mem_prefixesIn listed given)
  rw [References.within, References.within, same "ref" (by decide), same "type" (by decide),
    same "base" (by decide), same "substitutionGroup" (by decide)]

theorem ofContent_congr {content : Content}
    (agree : ∀ nsPrefix ∈ freePrefixes content, AgreeOn nsPrefix around around') :
    Resolved.ofContent settings around content = Resolved.ofContent settings around' content := by
  induction content generalizing around around' with
  | empty => rfl
  | comment entry rest ih => exact ih agree
  | element tag inner rest ihInner ihRest =>
    rw [freePrefixes, List.forall_mem_append] at agree
    rw [Resolved.ofContent, Resolved.ofContent, ihRest agree.2]
    cases schema : inSchema tag with
    | false => rfl
    | true =>
      have own : ∀ nsPrefix ∈ prefixesIn tag ++ freePrefixes inner,
          AgreeOn nsPrefix (tag.declarations :: around) (tag.declarations :: around') := by
        intro nsPrefix member
        refine agreeOn_cons ?_
        by_cases declares : Declares tag nsPrefix
        · exact .inl declares
        · rw [if_pos schema] at agree
          exact .inr (agree.1 nsPrefix (List.mem_filter.mpr ⟨member, by simpa using declares⟩))
      rw [List.forall_mem_append] at own
      rw [within_congr own.1, ihInner own.2]

end

/-- The second content has a declaration that stood further out. The element that it is moved to is
in its scope, and all references with its prefix are on that element or inside of it. -/
inductive Narrowed (declaration : Declaration) : Content → Content → Prop
  | here {tag inner rest earlier later} : tag.declarations = earlier ++ later →
    ¬ Declares tag declaration.nsPrefix → declaration.nsPrefix ∉ freePrefixes rest →
    Narrowed declaration (.element tag inner rest)
      (.element { tag with declarations := earlier ++ declaration :: later } inner rest)
  | inside {tag inner inner' rest} : ¬ Declares tag declaration.nsPrefix →
    (inSchema tag → declaration.nsPrefix ∉ prefixesIn tag) →
    declaration.nsPrefix ∉ freePrefixes rest → Narrowed declaration inner inner' →
    Narrowed declaration (.element tag inner rest) (.element tag inner' rest)
  | behind {tag inner rest rest'} : declaration.nsPrefix ∉ freePrefixes (.element tag inner .empty) →
    Narrowed declaration rest rest' →
    Narrowed declaration (.element tag inner rest) (.element tag inner rest')
  | comment {entry rest rest'} : Narrowed declaration rest rest' →
    Narrowed declaration (.comment entry rest) (.comment entry rest')

section
variable {settings : Settings} {tag : Tag} {around around' : List (List Declaration)}
  {declaration : Declaration} {first second : Content}

/-- All prefixes mean the same on the element that a declaration is moved to. -/
theorem agreeOn_moved {earlier later : List Declaration}
    (others : ∀ nsPrefix, nsPrefix ≠ declaration.nsPrefix → AgreeOn nsPrefix around around')
    (held : nearest? around declaration.nsPrefix = some declaration)
    (own : tag.declarations = earlier ++ later) (free : ¬ Declares tag declaration.nsPrefix)
    (nsPrefix : Option String) :
    AgreeOn nsPrefix (tag.declarations :: around) ((earlier ++ declaration :: later) :: around') := by
  by_cases same : nsPrefix = declaration.nsPrefix
  · have absent := find?_of_not_declares free
    rw [own, List.reverse_append, List.find?_append, Option.or_eq_none_iff] at absent
    have found : nearest? ((earlier ++ declaration :: later) :: around') declaration.nsPrefix =
        some declaration := by
      rw [nearest?_cons, List.reverse_append, List.reverse_cons, List.append_assoc,
        List.find?_append, absent.1]
      simp
    rw [AgreeOn, Bindings.lookup_around, Bindings.lookup_around, same, found, nearest?_cons,
      find?_of_not_declares free, held]
    rfl
  · have skipped : (earlier ++ declaration :: later).reverse.find? (·.nsPrefix == nsPrefix) =
        tag.declarations.reverse.find? (·.nsPrefix == nsPrefix) := by
      simp [own, Ne.symm same]
    have outer := others nsPrefix same
    unfold AgreeOn at *
    rw [Bindings.lookup_around, Bindings.lookup_around] at *
    rw [nearest?_cons, nearest?_cons, skipped]
    cases tag.declarations.reverse.find? (·.nsPrefix == nsPrefix) with
    | some nearest => rfl
    | none => exact outer

theorem ofContent_apart {nsPrefix : Option String} {content : Content}
    (others : ∀ other, other ≠ nsPrefix → AgreeOn other around around')
    (absent : nsPrefix ∉ freePrefixes content) :
    Resolved.ofContent settings around content = Resolved.ofContent settings around' content := by
  refine ofContent_congr fun other member => others other ?_
  rintro rfl
  exact absent member

/-- Moved as far inwards as its uses are, a declaration means the same to all references. -/
theorem ofContent_narrowed (narrowed : Narrowed declaration first second)
    (others : ∀ nsPrefix, nsPrefix ≠ declaration.nsPrefix → AgreeOn nsPrefix around around')
    (held : nearest? around declaration.nsPrefix = some declaration) :
    Resolved.ofContent settings around first = Resolved.ofContent settings around' second := by
  -- Outside of the element that it is moved to, the declaration is the nearest one of its prefix for
  -- the first content; for the second one the prefix may mean anything, as it is not used there.
  induction narrowed generalizing around around' with
  | @here tag inner rest earlier later own free absent =>
    have moved := agreeOn_moved others held own free
    rw [Resolved.ofContent, Resolved.ofContent, ofContent_apart others absent,
      ofContent_congr fun nsPrefix _ => moved nsPrefix, within_congr fun nsPrefix _ => moved nsPrefix]
    rfl
  | @inside tag inner inner' rest free unused absent _ ih =>
    have within : ∀ nsPrefix, nsPrefix ≠ declaration.nsPrefix →
        AgreeOn nsPrefix (tag.declarations :: around) (tag.declarations :: around') :=
      fun nsPrefix other => agreeOn_cons (.inr (others nsPrefix other))
    have passed : nearest? (tag.declarations :: around) declaration.nsPrefix = some declaration := by
      rw [nearest?_cons, find?_of_not_declares free, held]
      rfl
    rw [Resolved.ofContent, Resolved.ofContent, ofContent_apart others absent, ih within passed]
    cases schema : inSchema tag with
    | false => rfl
    | true =>
      rw [within_congr fun nsPrefix member => within nsPrefix ?_]
      rintro rfl
      exact unused schema member
  | @behind tag inner rest rest' absent _ ih =>
    have first : Resolved.ofContent settings around (.element tag inner .empty) =
        Resolved.ofContent settings around' (.element tag inner .empty) :=
      ofContent_apart others absent
    rw [Resolved.ofContent, Resolved.ofContent, ih others held]
    cases schema : inSchema tag with
    | false => rfl
    | true =>
      simp only [Resolved.ofContent, schema, if_true, Resolved.element.injEq] at first
      rw [first.2.1, first.2.2.1]
  | comment _ ih => exact ih others held

/-- No child of a global group declares the prefix itself. -/
def GroupsLeave (nsPrefix : Option String) (content : Content) : Prop :=
  ∀ group ∈ content.elements, inSchema group.tag → group.tag.name.localName = "group" →
    ∀ child ∈ group.content.elements, inSchema child.tag → ¬ Declares child.tag nsPrefix

variable {nsPrefix : Option String} {content : Content}

theorem mem_freePrefixes_undeclared
    (free : ∀ child ∈ content.elements, inSchema child.tag → ¬ Declares child.tag nsPrefix) :
    nsPrefix ∈ freePrefixes (undeclared content) ↔ nsPrefix ∈ freePrefixes content := by
  induction content with
  | empty => rfl
  | comment entry rest ih => exact ih free
  | element tag inner rest _ ih =>
    rw [Content.elements, List.forall_mem_cons] at free
    rw [undeclared, freePrefixes, freePrefixes, List.mem_append, List.mem_append, ih free.2]
    refine or_congr_left ?_
    cases schema : inSchema tag with
    | false => simp [schema]
    | true =>
      have own := free.1 schema
      have stripped : inSchema { tag with declarations := [] } = true := schema
      have nothing : ¬ Declares { tag with declarations := [] } nsPrefix := by simp [Declares]
      have same : prefixesIn { tag with declarations := [] } = prefixesIn tag := rfl
      simp [stripped, same, own, nothing]

theorem mem_freePrefixes_asRead (leave : GroupsLeave nsPrefix content) :
    nsPrefix ∈ freePrefixes (asRead content) ↔ nsPrefix ∈ freePrefixes content := by
  induction content with
  | empty => rfl
  | comment entry rest ih => exact ih leave
  | element tag inner rest _ ih =>
    rw [GroupsLeave, Content.elements, List.forall_mem_cons] at leave
    rw [asRead, freePrefixes, freePrefixes, List.mem_append, List.mem_append, ih leave.2]
    by_cases group : inSchema tag ∧ tag.name.localName = "group"
    · have same := mem_freePrefixes_undeclared (leave.1 group.1 group.2)
      simp only [if_pos group, if_pos group.1, List.mem_filter, List.mem_append, same]
    · rw [if_neg group]

theorem Narrowed.undeclared (narrowed : Narrowed declaration first second)
    (free : ∀ child ∈ second.elements, inSchema child.tag →
      ¬ Declares child.tag declaration.nsPrefix) :
    Narrowed declaration (undeclared first) (undeclared second) := by
  induction narrowed with
  | @here tag inner rest earlier later own outer absent =>
    rw [Content.elements, List.forall_mem_cons] at free
    have foreign : ¬ inSchema tag := fun schema => free.1 schema ⟨declaration, by simp, rfl⟩
    have foreign' : ¬ inSchema { tag with declarations := earlier ++ declaration :: later } := foreign
    rw [Schema.undeclared, Schema.undeclared, if_neg foreign, if_neg foreign']
    exact .here own outer (by rwa [mem_freePrefixes_undeclared free.2])
  | @inside tag inner inner' rest outer unused absent inward _ =>
    rw [Content.elements, List.forall_mem_cons] at free
    have behind := mt (mem_freePrefixes_undeclared free.2).mp absent
    rw [Schema.undeclared, Schema.undeclared]
    cases schema : inSchema tag with
    | false => exact .inside outer (by simp [schema]) behind inward
    | true => exact .inside (by simp [Declares]) (fun _ => unused schema) behind inward
  | @behind tag inner rest rest' absent _ ih =>
    rw [Content.elements, List.forall_mem_cons] at free
    have alone : declaration.nsPrefix ∉ freePrefixes (Schema.undeclared (.element tag inner .empty)) :=
      mt (mem_freePrefixes_undeclared (by simpa [Content.elements] using free.1)).mp absent
    exact .behind alone (ih free.2)
  | comment _ ih => exact .comment (ih free)

theorem Narrowed.asRead (narrowed : Narrowed declaration first second)
    (leave : GroupsLeave declaration.nsPrefix second) :
    Narrowed declaration (asRead first) (asRead second) := by
  induction narrowed with
  | @here tag inner rest earlier later own outer absent =>
    rw [GroupsLeave, Content.elements, List.forall_mem_cons] at leave
    exact .here own outer (mt (mem_freePrefixes_asRead leave.2).mp absent)
  | @inside tag inner inner' rest outer unused absent inward _ =>
    rw [GroupsLeave, Content.elements, List.forall_mem_cons] at leave
    have behind := mt (mem_freePrefixes_asRead leave.2).mp absent
    rw [Schema.asRead, Schema.asRead]
    split
    · rename_i group
      exact .inside outer unused behind (inward.undeclared (leave.1 group.1 group.2))
    · exact .inside outer unused behind inward
  | @behind tag inner rest rest' absent _ ih =>
    rw [GroupsLeave, Content.elements, List.forall_mem_cons] at leave
    have alone : declaration.nsPrefix ∉ freePrefixes (Schema.asRead (.element tag inner .empty)) :=
      mt (mem_freePrefixes_asRead (by simpa [GroupsLeave, Content.elements] using leave.1)).mp absent
    exact .behind alone (ih leave.2)
  | comment _ ih => exact .comment (ih leave)

end

section
variable (content : Content)

theorem ofContent_unplaced (settings : Settings) (around : List (List Declaration)) :
    Resolved.ofContent settings around content.unplaced =
      Resolved.ofContent settings around content := by
  induction content generalizing around with
  | empty => rfl
  | comment entry rest ih => exact ih around
  | element tag inner rest ihInner ihRest =>
    rw [Content.unplaced, Resolved.ofContent, Resolved.ofContent, ihRest]
    change (if inSchema tag then Resolved.element tag.bare _ (Resolved.ofContent settings
      (tag.declarations :: around) inner.unplaced) _ else _) = _
    rw [ihInner]
    rfl

theorem undeclared_unplaced : undeclared content.unplaced = (undeclared content).unplaced := by
  induction content with
  | empty => rfl
  | comment entry rest ih => rw [Content.unplaced, undeclared, undeclared, Content.unplaced, ih]
  | element tag inner rest _ ih =>
    have schema : inSchema tag.unplaced = inSchema tag := rfl
    rw [Content.unplaced, undeclared, undeclared, Content.unplaced, ih, schema]
    split <;> rfl

theorem asRead_unplaced : asRead content.unplaced = (asRead content).unplaced := by
  induction content with
  | empty => rfl
  | comment entry rest ih => rw [Content.unplaced, asRead, asRead, Content.unplaced, ih]
  | element tag inner rest _ ih =>
    have schema : inSchema tag.unplaced = inSchema tag := rfl
    have name : tag.unplaced.name = tag.name := rfl
    rw [Content.unplaced, asRead, asRead, Content.unplaced, ih, schema, name]
    split
    · rw [undeclared_unplaced]
    · rfl

end

theorem enter_root (tag : Tag) : Bindings.enter [] tag = .around [tag.declarations] := by
  simp [Bindings.enter, Bindings.around]

/-- Positions do not count for the definitions. -/
theorem definitions_unplaced (settings : Settings) (root : Element) :
    definitions settings (.enter [] root.unplaced.tag) root.unplaced.content =
      definitions settings (.enter [] root.tag) root.content := by
  rw [enter_root, enter_root, definitions_eq, definitions_eq, Element.unplaced, asRead_unplaced,
    ofContent_unplaced]
  rfl

/-- The second element has a declaration inside of it that the first one makes itself. -/
structure MovedInwards (declaration : Declaration) (first second : Element) : Prop where
  tag : ∃ before after, first.tag.declarations = before ++ declaration :: after ∧
    (∀ other ∈ before ++ after, other.nsPrefix ≠ declaration.nsPrefix) ∧
    second.tag = { first.tag with declarations := before ++ after }
  content : Narrowed declaration first.content second.content

theorem nearest?_singleton {before after : List Declaration} {declaration : Declaration}
    (others : ∀ other ∈ before ++ after, other.nsPrefix ≠ declaration.nsPrefix) :
    nearest? [before ++ declaration :: after] declaration.nsPrefix = some declaration ∧
      ∀ nsPrefix, nsPrefix ≠ declaration.nsPrefix →
        AgreeOn nsPrefix [before ++ declaration :: after] [before ++ after] := by
  constructor
  · have absent : after.reverse.find? (·.nsPrefix == declaration.nsPrefix) = none := by
      simpa using fun other member => others other (by simp [member])
    simp [nearest?, List.find?_append, absent]
  · intro nsPrefix other
    unfold AgreeOn
    rw [Bindings.lookup_around, Bindings.lookup_around]
    simp [nearest?, List.find?_append, Ne.symm other]

theorem definitions_movedInwards {declaration : Declaration} {first second : Element}
    (moved : MovedInwards declaration first second)
    (leave : GroupsLeave declaration.nsPrefix second.content) (settings : Settings) :
    definitions settings (.enter [] first.tag) first.content =
      definitions settings (.enter [] second.tag) second.content := by
  obtain ⟨before, after, own, others, tag⟩ := moved.tag
  obtain ⟨held, agree⟩ := nearest?_singleton others
  have declared : second.tag.declarations = before ++ after := by rw [tag]
  rw [enter_root, enter_root, own, declared, definitions_eq, definitions_eq,
    ofContent_narrowed (moved.content.asRead leave) agree held]

/-- Nothing is overlooked if the children of global groups declare nothing. -/
theorem asRead_eq_self {content : Content} (leave : ∀ nsPrefix, GroupsLeave nsPrefix content) :
    asRead content = content := by
  have undeclared_eq_self {inner : Content}
      (free : ∀ child ∈ inner.elements, inSchema child.tag → child.tag.declarations = []) :
      undeclared inner = inner := by
    induction inner with
    | empty => rfl
    | comment entry rest ih => rw [undeclared, ih free]
    | element tag inner rest _ ih =>
      rw [Content.elements, List.forall_mem_cons] at free
      rw [undeclared, ih free.2]
      split
      · rename_i schema
        rw [← free.1 schema]
      · rfl
  induction content with
  | empty => rfl
  | comment entry rest ih => rw [asRead, ih leave]
  | element tag inner rest _ ih =>
    simp only [GroupsLeave, Content.elements, List.forall_mem_cons] at leave
    rw [asRead, ih fun nsPrefix => (leave nsPrefix).2]
    split
    · rename_i group
      rw [undeclared_eq_self]
      intro child member schema
      refine List.eq_nil_iff_forall_not_mem.mpr fun declaration declared => ?_
      exact (leave declaration.nsPrefix).1 group.1 group.2 child member schema
        ⟨declaration, declared, rfl⟩
    · rfl

/-- The namespace of the components in a document. -/
def targetOf (document : Document) (inherited : Option String) : Option String :=
  ((document.root.tag.attribute? "targetNamespace").filter (· ≠ "")).or inherited

/-- Two documents add the same if they have the same name, target, settings and definitions. -/
theorem addDocument_congr {first second : Document} {progress : Progress} {file : Option Path}
    {inherited inherited' : Option String} (name : second.root.tag.name = first.root.tag.name)
    (target : targetOf second inherited' = targetOf first inherited)
    (others : ∀ attributeName, attributeName ≠ "targetNamespace" →
      second.root.tag.attribute? attributeName = first.root.tag.attribute? attributeName)
    (same : ∀ settings, definitions settings (.enter [] first.root.tag) first.root.content =
      definitions settings (.enter [] second.root.tag) second.root.content) :
    progress.addDocument file inherited first = progress.addDocument file inherited' second := by
  have schema : inSchema second.root.tag = inSchema first.root.tag := by rw [inSchema, name]; rfl
  unfold targetOf at target
  simp only [Progress.addDocument, schema, name, target, same, others "elementFormDefault" (by decide),
    others "attributeFormDefault" (by decide)]

/-- References are resolved by the nearest declaration of their prefix, on their element or around
it, and so a declaration can be moved from the schema element to any element that holds all its uses.
What a child of a global group declares is the exception: it is not seen. -/
theorem references_nearest {first : String} {outer : Document}
    (parsed : Xml.parse 0 first = .ok outer) :
    (∀ around nsPrefix, (Bindings.around around).lookup nsPrefix =
      if nsPrefix = some "xml" then some xmlUri else (nearest? around nsPrefix).map (·.uri)) ∧
    (∀ settings : Settings, definitions settings (.enter [] outer.root.tag) outer.root.content =
      (Resolved.ofContent settings [outer.root.tag.declarations]
        (asRead outer.root.content)).definitions settings) ∧
    ((∀ nsPrefix, GroupsLeave nsPrefix outer.root.content) →
      asRead outer.root.content = outer.root.content) ∧
    ∀ (declaration : Declaration) (second : String) (inner : Document),
      Xml.parse 0 second = .ok inner →
      MovedInwards declaration outer.root.unplaced inner.root.unplaced →
      GroupsLeave declaration.nsPrefix inner.root.unplaced.content →
      ∀ (progress : Progress) (file : Option Path) (inherited : Option String),
        progress.addText file inherited first = progress.addText file inherited second := by
  refine ⟨Bindings.lookup_around, fun settings => ?_, asRead_eq_self, ?_⟩
  · rw [enter_root]
    exact definitions_eq settings _ _
  · intro declaration second inner parsed' moved leave progress file inherited
    obtain ⟨before, after, -, -, tag⟩ := moved.tag
    have name : inner.root.unplaced.tag.name = outer.root.unplaced.tag.name := by rw [tag]
    have found (attributeName : String) :
        inner.root.tag.attribute? attributeName = outer.root.tag.attribute? attributeName := by
      change inner.root.unplaced.tag.attribute? attributeName = _
      rw [tag]
      rfl
    have target : targetOf inner inherited = targetOf outer inherited := by
      rw [targetOf, found, targetOf]
    simp only [Progress.addText, parsed, parsed']
    refine addDocument_congr name target (fun _ _ => found _) fun settings => ?_
    have same := definitions_movedInwards moved leave settings
    rwa [definitions_unplaced, definitions_unplaced] at same

/-- A schema with one reference, and declarations written in two places. -/
def referenceText (outer inner : String) : String :=
  "<s:schema" ++ outer ++ " xmlns:s='http://www.w3.org/2001/XMLSchema'><s:complexType name='T'>" ++
    "<s:all><s:element" ++ inner ++ " ref='k:a'/></s:all></s:complexType></s:schema>"

/-- The schema with one reference as it is parsed. The type starts behind the outer declarations. -/
def withReference (outer inner : List Declaration) (start : Nat) : Document :=
  let name := Name.within (some schemaUri)
  ⟨[], ⟨⟨name "schema", some "s", outer ++ [⟨some "s", schemaUri⟩], [], none, some ⟨0, 0, 153⟩⟩,
    .element ⟨name "complexType", some "s", [], [⟨.plain "name", none, "T"⟩], none,
        some ⟨0, start, 142⟩⟩
      (.element ⟨name "all", some "s", [], [], none, some ⟨0, start + 24, 126⟩⟩
        (.element ⟨name "element", some "s", inner, [⟨.plain "ref", none, "k:a"⟩], none,
          some ⟨0, start + 31, 118⟩⟩ .empty .empty) .empty) .empty⟩, []⟩

set_option maxRecDepth 8000 in
theorem references_nearest_moved :
    ∃ outer inner : Document,
      Xml.parse 0 (referenceText " xmlns:k='u'" "") = .ok outer ∧
      Xml.parse 0 (referenceText "" " xmlns:k='u'") = .ok inner ∧
      MovedInwards ⟨some "k", "u"⟩ outer.root.unplaced inner.root.unplaced ∧
      GroupsLeave (some "k") inner.root.unplaced.content ∧
      Progress.start.addText none none (referenceText " xmlns:k='u'" "") =
        Progress.start.addText none none (referenceText "" " xmlns:k='u'") := by
  have parsed : Xml.parse 0 (referenceText " xmlns:k='u'" "") =
      .ok (withReference [⟨some "k", "u"⟩] [] 65) := by rfl
  have parsed' : Xml.parse 0 (referenceText "" " xmlns:k='u'") =
      .ok (withReference [] [⟨some "k", "u"⟩] 53) := by rfl
  have moved : MovedInwards ⟨some "k", "u"⟩ (withReference [⟨some "k", "u"⟩] [] 65).root.unplaced
      (withReference [] [⟨some "k", "u"⟩] 53).root.unplaced := by
    refine ⟨⟨[], [⟨some "s", schemaUri⟩], rfl, by decide, rfl⟩, ?_⟩
    refine .inside (by decide) (by decide) (by decide) (.inside (by decide) (by decide) (by decide) ?_)
    exact @Narrowed.here _ _ _ _ [] [] rfl (by decide) (by decide)
  have leave : GroupsLeave (some "k")
      (withReference [] [⟨some "k", "u"⟩] 53).root.unplaced.content := by
    intro group member _ named
    rw [List.mem_singleton.mp member] at named
    exact absurd named (by decide)
  exact ⟨_, _, parsed, parsed', moved, leave,
    (references_nearest parsed).2.2.2 _ _ _ parsed' moved leave Progress.start none none⟩

end KeyholeMarkup.Schema

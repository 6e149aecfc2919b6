import KeyholeMarkup.Proofs.Schema.Loading
import KeyholeMarkup.Proofs.Schema.Narrowing

/-! Included documents without a target namespace. They take the one of the schema that includes
them, as if it were written on them. References without a prefix do not take it. -/
namespace KeyholeMarkup.Schema
open KeyholeMarkup.Storage KeyholeMarkup.Xml

/-- The second element has a target namespace in addition. -/
structure Targeted (uri : String) (first second : Element) : Prop where
  absent : first.tag.attribute? "targetNamespace" = none
  tag : ∃ before after, first.tag.attributes = before ++ after ∧
    second.tag = { first.tag with
      attributes := before ++ ⟨.plain "targetNamespace", none, uri⟩ :: after }
  content : second.content = first.content

/-- A name in the scope of a default namespace. -/
def renamed (uri : String) (tag : Tag) : Tag :=
  if tag.nsPrefix = none ∧ tag.name.uri = none then { tag with name := ⟨some uri, tag.name.localName⟩ }
  else tag

/-- A content in the scope of a default namespace. Elements without a prefix take it, unless there is
another declaration on them or around them. -/
def inDefault (uri : String) : Content → Content
  | .empty => .empty
  | .comment entry rest => .comment entry (inDefault uri rest)
  | .element tag inner rest =>
    if Declares tag none then .element tag inner (inDefault uri rest)
    else .element (renamed uri tag) (inDefault uri inner) (inDefault uri rest)

/-- The second element declares a default namespace in addition, by which no other element becomes
one of the schema. -/
structure Defaulted (uri : String) (first second : Element) : Prop where
  absent : ¬ Declares first.tag none
  tag : ∃ before after, first.tag.declarations = before ++ after ∧
    second.tag = { first.tag with declarations := before ++ ⟨none, uri⟩ :: after }
  content : second.content = inDefault uri first.content
  foreign : uri = schemaUri → second.content = first.content

section
variable {uri : String} {settings : Settings} {around : List (List Declaration)}

/-- Only elements of no namespace get another name, and none of them is one of the schema. -/
theorem inSchema_renamed (other : uri ≠ schemaUri) (tag : Tag) :
    inSchema (renamed uri tag) = inSchema tag ∧ (inSchema tag → renamed uri tag = tag) := by
  unfold renamed
  split
  · rename_i unnamed
    simp [inSchema, unnamed.2, other]
  · exact ⟨rfl, fun _ => rfl⟩

theorem ofContent_inDefault (other : uri ≠ schemaUri) (content : Content) :
    Resolved.ofContent settings around (inDefault uri content) =
      Resolved.ofContent settings around content := by
  induction content generalizing around with
  | empty => rfl
  | comment entry rest ih => exact ih
  | element tag inner rest ihInner ihRest =>
    obtain ⟨schema, kept⟩ := inSchema_renamed other tag
    rw [inDefault]
    split
    · rw [Resolved.ofContent, Resolved.ofContent, ihRest]
    · rw [Resolved.ofContent, Resolved.ofContent, ihRest, schema]
      split
      · rename_i own
        rw [kept own, ihInner]
      · rfl

theorem ofContent_undeclared_inDefault (other : uri ≠ schemaUri) (content : Content) :
    Resolved.ofContent settings around (undeclared (inDefault uri content)) =
      Resolved.ofContent settings around (undeclared content) := by
  induction content with
  | empty => rfl
  | comment entry rest ih => exact ih
  | element tag inner rest _ ih =>
    obtain ⟨schema, kept⟩ := inSchema_renamed other tag
    rw [inDefault]
    split
    · rw [undeclared, undeclared, Resolved.ofContent, Resolved.ofContent, ih]
    · rw [undeclared, undeclared, schema]
      cases own : inSchema tag with
      | true =>
        rw [Resolved.ofContent, Resolved.ofContent, ih, kept own, ofContent_inDefault other]
      | false => simp [Resolved.ofContent, schema, own, ih]

theorem ofContent_asRead_inDefault (other : uri ≠ schemaUri) (content : Content) :
    Resolved.ofContent settings around (asRead (inDefault uri content)) =
      Resolved.ofContent settings around (asRead content) := by
  induction content with
  | empty => rfl
  | comment entry rest ih => exact ih
  | element tag inner rest _ ih =>
    obtain ⟨schema, kept⟩ := inSchema_renamed other tag
    rw [inDefault]
    split
    · rw [asRead, asRead, Resolved.ofContent, Resolved.ofContent, ih]
    · rw [asRead, asRead, schema]
      cases own : inSchema tag with
      | true =>
        rw [Resolved.ofContent, Resolved.ofContent, ih, kept own]
        by_cases group : tag.name.localName = "group"
        · simp only [group, and_self, if_true, ofContent_undeclared_inDefault other]
        · simp only [group, and_false, if_false, ofContent_inDefault other]
      | false => simp [Resolved.ofContent, schema, own, ih]

end

/-- A default namespace does not count where no reference without a prefix would take it. -/
theorem definitions_defaulted {uri : String} {first second : Element}
    (defaulted : Defaulted uri first second) (unused : none ∉ freePrefixes (asRead first.content))
    (settings : Settings) :
    definitions settings (.enter [] first.tag) first.content =
      definitions settings (.enter [] second.tag) second.content := by
  obtain ⟨before, after, own, tag⟩ := defaulted.tag
  have declared : second.tag.declarations = before ++ ⟨none, uri⟩ :: after := by rw [tag]
  have others : ∀ other ∈ before ++ after, other.nsPrefix ≠ Declaration.nsPrefix ⟨none, uri⟩ :=
    fun other member isDefault => defaulted.absent ⟨other, own ▸ member, isDefault⟩
  obtain ⟨-, agree⟩ := nearest?_singleton others
  have content : Resolved.ofContent settings [before ++ ⟨none, uri⟩ :: after] (asRead second.content) =
      Resolved.ofContent settings [before ++ ⟨none, uri⟩ :: after] (asRead first.content) := by
    by_cases schema : uri = schemaUri
    · rw [defaulted.foreign schema]
    · rw [defaulted.content, ofContent_asRead_inDefault schema]
  rw [enter_root, enter_root, own, declared, definitions_eq, definitions_eq, content,
    ofContent_apart agree unused]

/-- The second element is the first one with a target namespace. It may have it as default namespace
as well, if no reference without a prefix would take it. -/
def Adopted (uri : String) (first second : Element) : Prop :=
  ∃ targeted, Targeted uri first targeted ∧ (second = targeted ∨
    Defaulted uri targeted second ∧ none ∉ freePrefixes (asRead first.content))

section
variable {uri attributeName : String} {first second : Element}

theorem Targeted.target (targeted : Targeted uri first second) :
    second.tag.attribute? "targetNamespace" = some uri := by
  obtain ⟨before, after, own, tag⟩ := targeted.tag
  have absent := targeted.absent
  rw [Tag.attribute?, own, List.find?_append, Option.map_eq_none_iff, Option.or_eq_none_iff] at absent
  rw [tag, Tag.attribute?, List.find?_append, absent.1]
  simp [Name.plain]

theorem Targeted.attribute? (targeted : Targeted uri first second)
    (other : attributeName ≠ "targetNamespace") :
    second.tag.attribute? attributeName = first.tag.attribute? attributeName := by
  obtain ⟨before, after, own, tag⟩ := targeted.tag
  rw [tag, Tag.attribute?, Tag.attribute?, own, List.find?_append, List.find?_append,
    List.find?_cons_of_neg (by simpa [Name.plain] using Ne.symm other)]

theorem Adopted.attribute? (adopted : Adopted uri first second) :
    first.tag.attribute? "targetNamespace" = none ∧
      second.tag.attribute? "targetNamespace" = some uri ∧
      ∀ attributeName, attributeName ≠ "targetNamespace" →
        second.tag.attribute? attributeName = first.tag.attribute? attributeName := by
  obtain ⟨targeted, target, rfl | ⟨defaulted, -⟩⟩ := adopted
  · exact ⟨target.absent, target.target, fun _ => target.attribute?⟩
  · obtain ⟨before, after, -, tag⟩ := defaulted.tag
    have same (attributeName : String) :
        second.tag.attribute? attributeName = targeted.tag.attribute? attributeName := by
      rw [tag]; rfl
    exact ⟨target.absent, (same _).trans target.target, fun name other =>
      (same name).trans (target.attribute? other)⟩

theorem Adopted.name (adopted : Adopted uri first second) : second.tag.name = first.tag.name := by
  obtain ⟨targeted, target, rfl | ⟨defaulted, -⟩⟩ := adopted
  · obtain ⟨before, after, -, tag⟩ := target.tag
    rw [tag]
  · obtain ⟨before, after, -, tag⟩ := target.tag
    obtain ⟨earlier, later, -, tag'⟩ := defaulted.tag
    rw [tag', tag]

theorem Adopted.definitions (adopted : Adopted uri first second) (settings : Settings) :
    definitions settings (.enter [] first.tag) first.content =
      definitions settings (.enter [] second.tag) second.content := by
  obtain ⟨targeted, target, same⟩ := adopted
  obtain ⟨before, after, -, tag⟩ := target.tag
  have declared : first.tag.declarations = targeted.tag.declarations := by rw [tag]
  have content := target.content
  have same₁ : Schema.definitions settings (.enter [] first.tag) first.content =
      Schema.definitions settings (.enter [] targeted.tag) targeted.content := by
    rw [enter_root, enter_root, declared, content]
  obtain rfl | ⟨defaulted, unused⟩ := same
  · exact same₁
  · rw [same₁, definitions_defaulted defaulted (by rwa [content])]

end

/-- A document adopts a target namespace as if it were its own. -/
theorem definitionsOf_adopted {uri : String} {first second : Document} (named : uri ≠ "")
    (adopted : Adopted uri first.root.unplaced second.root.unplaced) (file : Option Path)
    (inherited : Option String) :
    definitionsOf file (some uri) first = definitionsOf file inherited second := by
  obtain ⟨absent, target, others⟩ := adopted.attribute?
  have absent' : first.root.tag.attribute? "targetNamespace" = none := absent
  have target' : second.root.tag.attribute? "targetNamespace" = some uri := target
  have others' (attributeName : String) (other : attributeName ≠ "targetNamespace") :
      second.root.tag.attribute? attributeName = first.root.tag.attribute? attributeName :=
    others attributeName other
  have settings : settingsOf file inherited second = settingsOf file (some uri) first := by
    simp [settingsOf, absent', target', named, others' "elementFormDefault" (by decide),
      others' "attributeFormDefault" (by decide)]
  have same := adopted.definitions (settingsOf file (some uri) first)
  rw [definitions_unplaced, definitions_unplaced] at same
  have name : second.root.tag.name = first.root.tag.name := adopted.name
  simp only [definitionsOf, isSchema_congr name, settings, same, name]

/-- Whenever the file at a place is loaded, it is handed down this namespace. -/
def HandsDown (tree : Tree) (folders : List Path) (place : List String) (uri : String)
    (progress : Progress) : Prop :=
  ∀ (reached : Progress) (mention : Mention) (waiting : List Mention) (file : Path),
    Progress.Reaches tree folders progress reached → reached.waiting = mention :: waiting →
    Progress.fresh? tree folders { reached with waiting } mention = some (file, place) →
    mention.target = some uri

/-- All that waits is handed down this namespace. -/
def AllHanded (uri : String) (progress : Progress) : Prop :=
  ∀ mention ∈ progress.waiting, mention.target = some uri

/-- A document of this namespace that mentions none of another one. -/
structure KeepsTo (uri : String) (inherited : Option String) (document : Document) : Prop where
  target : targetOf document inherited = some uri
  imports : ∀ child ∈ document.root.content.elements, child.tag.name.localName = "import" →
    child.tag.attribute? "schemaLocation" = none

/-- All files that hold schemas are of this namespace when it is handed down to them. -/
def AllKeepTo (uri : String) (tree : Tree) : Prop :=
  ∀ names text document, tree.readAt names = .ok text → Xml.parse 0 text = .ok document →
    KeepsTo uri (some uri) document

section
variable {uri source : String} {target : Option String} {settings : Settings} {bindings : Bindings}
  {tag : Tag} {inner content : Content} {progress : Progress}

theorem mention_of_definition?
    (read : definition? settings bindings tag inner = .ok (some (.mention source target))) :
    tag.name.localName = "import" ∧ tag.attribute? "schemaLocation" = some source ∨
      target = settings.target := by
  unfold definition? at read
  simp only [bind, Except.bind, pure, Except.pure] at read
  split at read
  · rename_i name
    cases given : tag.attribute? "schemaLocation" with
    | none => simp [given] at read
    | some location =>
      simp only [given, Option.map_some, Except.ok.injEq, Option.some.injEq,
        Definition.mention.injEq] at read
      exact .inl ⟨name, congrArg some read.1⟩
  · cases given : tag.attribute? "schemaLocation" with
    | none => simp [given] at read
    | some location =>
      simp only [given, Option.map_some, Except.ok.injEq, Option.some.injEq,
        Definition.mention.injEq] at read
      exact .inr read.2.symm
  all_goals
    repeat' split at read
    all_goals cases read

/-- Included documents are handed down the namespace of the document. -/
theorem mention_of_definitions
    (imports : ∀ child ∈ content.elements, child.tag.name.localName = "import" →
      child.tag.attribute? "schemaLocation" = none)
    (mentioned : .mention source target ∈ (definitions settings bindings content).1) :
    target = settings.target := by
  induction content with
  | empty => cases mentioned
  | comment entry rest ih => exact ih imports mentioned
  | element tag inner rest _ ih =>
    rw [Content.elements, List.forall_mem_cons] at imports
    rw [definitions] at mentioned
    split at mentioned
    · cases mentioned
    · rename_i first read
      obtain own | behind := List.mem_append.mp mentioned
      · rw [Option.mem_toList.mp own] at read
        split at read
        · obtain ⟨name, given⟩ | included := mention_of_definition? read
          · rw [imports.1 name] at given
            cases given
          · exact included
        · cases read
      · exact ih imports.2 behind

theorem AllHanded.foldl {found : List Definition} {beside : Option Path}
    (handed : AllHanded uri progress)
    (mentions : ∀ source target, .mention source target ∈ found → target = some uri) :
    AllHanded uri (found.foldl (Progress.add beside) progress) := by
  induction found generalizing progress with
  | nil => exact handed
  | cons definition found ih =>
    refine ih ?_ fun source target later => mentions source target (List.mem_cons_of_mem _ later)
    cases definition with
    | mention source target =>
      exact List.forall_mem_cons.mpr ⟨mentions source target List.mem_cons_self, handed⟩
    | element | type | group | attributeGroup => exact handed

theorem AllHanded.addText {text : String} {inherited : Option String} (handed : AllHanded uri progress)
    (keeps : ∀ document, Xml.parse 0 text = .ok document → KeepsTo uri inherited document)
    (file : Option Path) : AllHanded uri (progress.addText file inherited text).1 := by
  unfold Progress.addText
  cases parsed : Xml.parse 0 text with
  | error error => exact handed
  | ok document =>
    obtain ⟨target, imports⟩ := keeps document parsed
    unfold Progress.addDocument
    dsimp only
    split
    · exact handed.foldl fun source given mentioned =>
        (mention_of_definitions imports mentioned).trans target
    · exact handed

variable {tree : Tree} {folders : List Path}

/-- A step that takes a file of this namespace leaves others of this namespace to be taken. -/
theorem AllHanded.take {mention : Mention} {waiting : List Mention} (handed : AllHanded uri progress)
    (keeps : AllKeepTo uri tree) (waits : progress.waiting = mention :: waiting) :
    AllHanded uri (Progress.take tree folders mention { progress with waiting }) := by
  rw [AllHanded, waits, List.forall_mem_cons] at handed
  unfold Progress.take
  split
  · exact handed.2
  · rename_i file names fresh
    unfold Progress.addFile
    dsimp only
    split
    · exact handed.2
    · rename_i text held
      rw [handed.1]
      have others : AllHanded uri ⟨progress.components, names :: progress.visited, waiting⟩ := handed.2
      exact others.addText (fun document parsed => keeps names text document held parsed) _

theorem AllHanded.reaches {reached : Progress}
    (keeps : AllKeepTo uri tree)
    (reaches : Progress.Reaches tree folders progress reached) (handed : AllHanded uri progress) :
    AllHanded uri reached := by
  induction reaches with
  | refl progress => exact handed
  | take waits _ ih => exact ih (handed.take keeps waits)

/-- Where all schemas are of one namespace and only include each other, that namespace is handed
down to each of them. -/
theorem AllHanded.handsDown (handed : AllHanded uri progress)
    (keeps : AllKeepTo uri tree) (place : List String) :
    HandsDown tree folders place uri progress := by
  intro reached mention waiting file reaches waits _
  have all := AllHanded.reaches keeps reaches handed
  rw [AllHanded, waits, List.forall_mem_cons] at all
  exact all.1

end

section
variable {tree : Tree} {folders : List Path} {place : List String} {uri text text' : String}
  {included adopting : Document}

/-- A text that a file is replaced with. -/
theorem addFile_put (held : tree.entryAt place = some (.file text.toUTF8)) {names : List String}
    (other : names ≠ place) (progress : Progress) (file : Path) (inherited : Option String) :
    progress.addFile (tree.put place (.file text'.toUTF8)) file names inherited =
      progress.addFile tree file names inherited := by
  simp only [Progress.addFile, Tree.readAt_put_of_ne held _ other]

/-- The file is handed down the namespace that is written on the one in its place. -/
theorem settle_adopted (held : tree.entryAt place = some (.file text.toUTF8))
    (parsed : Xml.parse 0 text = .ok included) (parsed' : Xml.parse 0 text' = .ok adopting)
    (named : uri ≠ "") (adopted : Adopted uri included.root.unplaced adopting.root.unplaced)
    {progress : Progress} (handsDown : HandsDown tree folders place uri progress) :
    progress.settle tree folders =
      progress.settle (tree.put place (.file text'.toUTF8)) folders := by
  apply Progress.settle_put held
  intro reached mention waiting file reaches waits fresh
  rw [handsDown reached mention waiting file reaches waits fresh, definitionsAt_text held,
    definitionsAt_text (Tree.entryAt_put tree place _)]
  simp only [definitionsIn, parsed, parsed', definitionsOf_adopted named adopted _ (some uri)]

end

/-- An included document is loaded as if the namespace of the schema that includes it were its own
target. It could be its default namespace as well, if it weren't for references without a prefix:
these stay outside of it. -/
theorem load_adopted {tree : Tree} {folders : List Path} {place : List String}
    {uri text text' : String} {included adopting : Document}
    (held : tree.entryAt place = some (.file text.toUTF8))
    (parsed : Xml.parse 0 text = .ok included) (parsed' : Xml.parse 0 text' = .ok adopting)
    (named : uri ≠ "") (adopted : Adopted uri included.root.unplaced adopting.root.unplaced) :
    (∀ schema : String,
      HandsDown tree folders place uri (Progress.start.addText none none schema).1 →
      ofText tree folders schema = ofText (tree.put place (.file text'.toUTF8)) folders schema) ∧
    ∀ source : String,
      (∀ file names, find tree folders source none = .ok file → tree.file? file = some names →
        names ≠ place ∧
          HandsDown tree folders place uri (Progress.start.addFile tree file names none).1) →
      load tree folders source = load (tree.put place (.file text'.toUTF8)) folders source := by
  have shape := Tree.sameShape_put held text'.toUTF8
  constructor
  · intro schema handsDown
    unfold ofText
    split
    · rfl
    · rename_i progress added
      rw [added] at handsDown
      rw [settle_adopted held parsed parsed' named adopted handsDown]
  · intro source main
    unfold load
    rw [← find_sameShape shape, ← funext shape.file?]
    cases found : find tree folders source none with
    | error error => rfl
    | ok file =>
      simp only [bind, Except.bind]
      cases known : tree.file? file with
      | none => rfl
      | some names =>
        obtain ⟨other, handsDown⟩ := main file names found known
        simp only [addFile_put held other]
        split
        · rfl
        · rename_i progress added
          rw [added] at handsDown
          rw [settle_adopted held parsed parsed' named adopted handsDown]

/-- A schema document with more written on the schema element. -/
def schemaText (more content : String) : String :=
  "<s:schema xmlns:s='http://www.w3.org/2001/XMLSchema'" ++ more ++ ">" ++ content ++ "</s:schema>"

/-- A schema document as it is parsed, with the number of bytes in it. -/
def schemaDocument (declarations : List Declaration) (attributes : List Attribute)
    (content : Content) (stop : Nat) : Document :=
  ⟨[], ⟨⟨⟨some schemaUri, "schema"⟩, some "s", ⟨some "s", schemaUri⟩ :: declarations, attributes,
    none, some ⟨0, 0, stop⟩⟩, content⟩, []⟩

def includingText : String :=
  schemaText " targetNamespace='k'" "<s:include schemaLocation='b'/>"

def includedText (more : String) : String :=
  schemaText (" xmlns:k='k'" ++ more) "<s:element name='x' type='k:T'/><s:complexType name='T'/><i/>"

def includedContent (uri : Option String) (start : Nat) : Content :=
  .element ⟨⟨some schemaUri, "element"⟩, some "s", [],
      [⟨.plain "name", none, "x"⟩, ⟨.plain "type", none, "k:T"⟩], none,
      some ⟨0, start, start + 32⟩⟩ .empty
    (.element ⟨⟨some schemaUri, "complexType"⟩, some "s", [], [⟨.plain "name", none, "T"⟩], none,
        some ⟨0, start + 32, start + 57⟩⟩ .empty
      (.element ⟨⟨uri, "i"⟩, none, [], [], none, some ⟨0, start + 57, start + 61⟩⟩ .empty .empty))

/-- A schema and one that it includes, with a reference by a prefix. -/
def schemas : Tree :=
  ⟨[(["a"], .file includingText.toUTF8), (["b"], .file (includedText "").toUTF8)], []⟩

set_option maxRecDepth 8000 in
theorem parse_schemas :
    Xml.parse 0 includingText = .ok (schemaDocument [] [⟨.plain "targetNamespace", none, "k"⟩]
      (.element ⟨⟨some schemaUri, "include"⟩, some "s", [], [⟨.plain "schemaLocation", none, "b"⟩],
        none, some ⟨0, 73, 104⟩⟩ .empty .empty) 115) ∧
    Xml.parse 0 (includedText "") =
      .ok (schemaDocument [⟨some "k", "k"⟩] [] (includedContent none 65) 137) :=
  ⟨by rfl, by rfl⟩

theorem allKeepTo_schemas : AllKeepTo "k" schemas := by
  intro names text document held parsed
  unfold Tree.readAt at held
  split at held
  · cases held
  · cases held
  · rename_i bytes entry
    have member := List.mem_of_find?_eq_some (Tree.find?_entries entry)
    simp only [schemas, List.mem_cons, Prod.mk.injEq, Entry.file.injEq, List.not_mem_nil,
      or_false] at member
    obtain ⟨-, rfl⟩ | ⟨-, rfl⟩ := member
    · obtain rfl : includingText = text := by simpa using held
      rw [parse_schemas.1] at parsed
      cases parsed
      exact ⟨rfl, by decide⟩
    · obtain rfl : includedText "" = text := by simpa using held
      rw [parse_schemas.2] at parsed
      cases parsed
      exact ⟨rfl, by decide⟩

set_option maxRecDepth 8000 in
theorem load_adopted_schemas :
    ∃ included adopting,
      schemas.entryAt ["b"] = some (.file (includedText "").toUTF8) ∧
      Xml.parse 0 (includedText "") = .ok included ∧
      Xml.parse 0 (includedText " targetNamespace='k' xmlns='k'") = .ok adopting ∧
      "k" ≠ "" ∧ Adopted "k" included.root.unplaced adopting.root.unplaced ∧
      load schemas [] "a" = load (schemas.put ["b"]
        (.file (includedText " targetNamespace='k' xmlns='k'").toUTF8)) [] "a" := by
  have parsed : Xml.parse 0 (includedText " targetNamespace='k' xmlns='k'") =
      .ok (schemaDocument [⟨some "k", "k"⟩, ⟨none, "k"⟩] [⟨.plain "targetNamespace", none, "k"⟩]
        (includedContent (some "k") 95) 167) := by rfl
  have adopted : Adopted "k"
      (schemaDocument [⟨some "k", "k"⟩] [] (includedContent none 65) 137).root.unplaced
      (schemaDocument [⟨some "k", "k"⟩, ⟨none, "k"⟩] [⟨.plain "targetNamespace", none, "k"⟩]
        (includedContent (some "k") 95) 167).root.unplaced :=
    ⟨(schemaDocument [⟨some "k", "k"⟩] [⟨.plain "targetNamespace", none, "k"⟩]
      (includedContent none 65) 137).root.unplaced, ⟨rfl, ⟨[], [], rfl, rfl⟩, rfl⟩,
      .inr ⟨⟨by decide, ⟨[_, _], [], rfl, rfl⟩, rfl, by decide⟩, by decide⟩⟩
  refine ⟨_, _, rfl, parse_schemas.2, parsed, by decide, adopted,
    (load_adopted rfl parse_schemas.2 parsed (by decide) adopted).2 "a" ?_⟩
  intro file names found known
  obtain rfl : (⟨"a"⟩ : Path) = file := by
    have main : find schemas [] "a" none = .ok ⟨"a"⟩ := rfl
    exact Except.ok.inj (main.symm.trans found)
  obtain rfl : ["a"] = names := by
    have main : schemas.file? ⟨"a"⟩ = some ["a"] := rfl
    exact Option.some.inj (main.symm.trans known)
  refine ⟨by decide, AllHanded.handsDown ?_ allKeepTo_schemas ["b"]⟩
  have nothing : AllHanded "k" ⟨.none, [["a"]], []⟩ := by simp [AllHanded]
  have read : schemas.readAt ["a"] = .ok includingText := by
    change decode includingText.toUTF8 = _
    simp
  have keeps (document : Document) (whole : Xml.parse 0 includingText = .ok document) :
      KeepsTo "k" none document := by
    rw [parse_schemas.1] at whole
    cases whole
    exact ⟨rfl, by decide⟩
  simp only [Progress.addFile, read]
  exact nothing.addText keeps _

end KeyholeMarkup.Schema

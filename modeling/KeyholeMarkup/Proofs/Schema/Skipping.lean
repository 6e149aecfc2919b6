import KeyholeMarkup.Proofs.Schema.Narrowing
import KeyholeMarkup.Proofs.Schema.Loading

/-! Mentioned documents that cannot be loaded. What stands in front of the fault is added all the
same. A file with nothing in front of its fault could as well be absent. -/
namespace KeyholeMarkup.Storage.Tree

/-- The second tree is the first one without the file at a place. -/
structure Lacks (place : List String) (first second : Tree) : Prop where
  working : second.working = first.working
  held : ∃ bytes, first.entryAt place = some (.file bytes)
  gone : second.entryAt place = none
  others : ∀ names, names ≠ place → second.entryAt names = first.entryAt names

section
variable {place : List String} {first second : Tree} (lacks : Lacks place first second)
include lacks

/-- A way leads to the same place without the file, or else it led to the file if to anything. -/
theorem Lacks.follow (segments : List (List Char)) (start : List String) :
    second.follow start segments = first.follow start segments ∨
      (∃ fault, second.follow start segments = .error fault) ∧
        ∀ names, first.follow start segments = .ok names → names = place := by
  induction segments generalizing start with
  | nil => exact .inl rfl
  | cons segment rest ih =>
    obtain ⟨bytes, held⟩ := lacks.held
    simp only [Tree.follow]
    by_cases here : start = place
    · subst here
      rw [lacks.gone, held]
      exact .inr ⟨⟨_, rfl⟩, fun _ led => by cases led⟩
    · rw [lacks.others start here]
      cases first.entryAt start with
      | none => exact .inl rfl
      | some entry =>
        cases entry with
        | file bytes => exact .inl rfl
        | folder =>
          dsimp only
          split
          · exact ih _
          · rename_i name _
            by_cases next : start ++ [String.ofList name] = place
            · -- The last step is one to the file, or one beyond it.
              rw [next, lacks.gone, held]
              split
              · exact .inl rfl
              · refine .inr ⟨⟨_, rfl⟩, ?_⟩
                intro names led
                cases rest with
                | nil => simpa [Tree.follow] using led.symm
                | cons segment rest => simp [Tree.follow, held] at led
            · rw [lacks.others _ next]
              split
              · exact .inl rfl
              · split
                · exact ih _
                · exact .inl rfl
          · exact ih _

theorem Lacks.locate (path : Path) : second.locate path = first.locate path ∨
    (∃ fault, second.locate path = .error fault) ∧
      ∀ names, first.locate path = .ok names → names = place := by
  rw [Tree.locate, Tree.locate, Tree.base, Tree.base, lacks.working]
  cases path.fault? with
  | some fault => exact .inl rfl
  | none => exact lacks.follow _ _

theorem Lacks.file? (path : Path) : second.file? path = (first.file? path).filter (· ≠ place) := by
  obtain ⟨bytes, held⟩ := lacks.held
  unfold Tree.file?
  obtain same | ⟨⟨fault, lost⟩, led⟩ := lacks.locate path
  · rw [same]
    cases first.locate path with
    | error fault => rfl
    | ok names =>
      dsimp only
      by_cases here : names = place
      · rw [here, lacks.gone, held]
        simp [Option.filter_some]
      · rw [lacks.others names here]
        cases first.entryAt names with
        | none => rfl
        | some entry => cases entry <;> simp [Option.filter_some, here]
  · rw [lost]
    cases located : first.locate path with
    | error fault => rfl
    | ok names =>
      obtain rfl := led names located
      simp [held, Option.filter_some]

theorem Lacks.file?_of_ne {path : Path} (other : first.file? path ≠ some place) :
    second.file? path = first.file? path := by
  rw [lacks.file?]
  cases found : first.file? path with
  | none => rfl
  | some names =>
    have elsewhere : names ≠ place := fun here => other (here ▸ found)
    simp [Option.filter_some, elsewhere]

theorem Lacks.readAt {names : List String} (other : names ≠ place) :
    second.readAt names = first.readAt names := by
  rw [Tree.readAt, Tree.readAt, lacks.others names other]

end
end KeyholeMarkup.Storage.Tree

namespace KeyholeMarkup.Schema
open KeyholeMarkup.Storage KeyholeMarkup.Xml

section
variable {place : List String} {first second : Tree} {folders : List Path} {source : String}
  {beside : Option Path}

/-- A search that doesn't lead to the file doesn't need it. -/
theorem find_lacks (lacks : Tree.Lacks place first second)
    (elsewhere : ∀ file, find first folders source beside = .ok file →
      first.file? file ≠ some place) :
    find second folders source beside = find first folders source beside := by
  have isFile (path : Path) (other : first.file? path ≠ some place) :
      second.isFile path = first.isFile path := by
    rw [Tree.isFile, Tree.isFile, lacks.file?_of_ne other]
  unfold find at elsewhere ⊢
  dsimp only at elsewhere ⊢
  cases found : (candidates folders source beside).find? first.isFile with
  | none =>
    have nothing : (candidates folders source beside).find? second.isFile = none := by
      rw [List.find?_eq_none] at found ⊢
      intro path listed
      have none := found path listed
      rwa [isFile path]
      intro leads
      simp [Tree.isFile, leads] at none
    rw [nothing]
  | some file =>
    have other := elsewhere file (by rw [found])
    have same : (candidates folders source beside).find? second.isFile = some file := by
      rw [List.find?_eq_some_iff_append] at found ⊢
      obtain ⟨isOne, before, after, listed, earlier⟩ := found
      refine ⟨by rwa [isFile file other], before, after, listed, ?_⟩
      intro path member
      have none := earlier path member
      rwa [isFile path]
      intro leads
      simp [Tree.isFile, leads] at none
    rw [same]

theorem definitionsAt_lacks (lacks : Tree.Lacks place first second) {names : List String}
    (other : names ≠ place) (file : Path) (inherited : Option String) :
    definitionsAt second file names inherited = definitionsAt first file names inherited := by
  rw [definitionsAt, definitionsAt, lacks.readAt other]

theorem begin_lacks (lacks : Tree.Lacks place first second) {main : MainSchema}
    (apart : ∀ file, main.file? first folders ≠ some (file, place)) :
    main.begin second folders = main.begin first folders := by
  cases main with
  | text schema => rfl
  | source name =>
    have elsewhere (file : Path) (found : find first folders name none = .ok file) :
        first.file? file ≠ some place := by
      intro known
      exact apart file (by simp [MainSchema.file?, found, known, Except.toOption])
    rw [MainSchema.begin, MainSchema.begin, find_lacks lacks elsewhere]
    cases found : find first folders name none with
    | error error => rfl
    | ok file =>
      simp only [bind, Except.bind, lacks.file?_of_ne (elsewhere file found)]
      cases known : first.file? file with
      | none => rfl
      | some names =>
        have other : names ≠ place := fun here => elsewhere file found (here ▸ known)
        simp only [Progress.addFile_eq, definitionsAt_lacks lacks other]

end

namespace Progress

/-- The states differ at most in whether a place has been visited. -/
structure AlikeBut (place : List String) (first second : Progress) : Prop where
  components : second.components = first.components
  waiting : second.waiting = first.waiting
  visited : ∀ names, names ≠ place → (names ∈ second.visited ↔ names ∈ first.visited)

section
variable {place : List String} {progress other : Progress}

theorem AlikeBut.foldl_add (alike : AlikeBut place progress other) (beside : Option Path)
    (found : List Definition) :
    AlikeBut place (found.foldl (add beside) progress) (found.foldl (add beside) other) := by
  induction found generalizing progress other with
  | nil => exact alike
  | cons definition found ih =>
    apply ih
    obtain ⟨components, waiting, visited⟩ := alike
    cases definition with
    | mention source target =>
      refine ⟨components, ?_, visited⟩
      simp only [add, waiting]
    | element | type | group | attributeGroup =>
      refine ⟨?_, waiting, visited⟩
      simp only [add, components]

variable {first second : Tree} {folders : List Path} {mention : Mention}

/-- No other file is found where the mentions that come up lead to this one. -/
def Irreplaceable (progress : Progress) (first second : Tree) (folders : List Path)
    (place : List String) : Prop :=
  ∀ (reached : Progress) (mention : Mention) (waiting : List Mention) (file : Path),
    Reaches first folders progress reached → reached.waiting = mention :: waiting →
    find first folders mention.source mention.beside = .ok file →
    first.file? file = some place →
    ∃ error, find second folders mention.source mention.beside = .error error

theorem fresh?_lacks (lacks : Tree.Lacks place first second) (alike : AlikeBut place progress other)
    (sole : ∀ file, find first folders mention.source mention.beside = .ok file →
      first.file? file = some place →
      ∃ error, find second folders mention.source mention.beside = .error error) :
    fresh? second folders other mention =
      (fresh? first folders progress mention).filter (·.2 ≠ place) := by
  unfold fresh?
  -- Either the mention leads to the file that is gone, or the search never needed it.
  by_cases leads : ∃ file, find first folders mention.source mention.beside = .ok file ∧
      first.file? file = some place
  · obtain ⟨file, found, known⟩ := leads
    obtain ⟨error, lost⟩ := sole file found known
    rw [found, lost]
    by_cases visited : place ∈ progress.visited <;>
      simp [Except.toOption, known, visited, Option.filter_some]
  · have apart : ∀ file, find first folders mention.source mention.beside = .ok file →
        first.file? file ≠ some place := fun file found known => leads ⟨file, found, known⟩
    rw [find_lacks lacks apart]
    cases found : find first folders mention.source mention.beside with
    | error error => rfl
    | ok file =>
      simp only [Except.toOption, Option.bind_eq_bind, Option.bind_some,
        lacks.file?_of_ne (apart file found)]
      cases known : first.file? file with
      | none => rfl
      | some names =>
        have elsewhere : names ≠ place := fun here => apart file found (here ▸ known)
        by_cases visited : names ∈ progress.visited <;>
          simp [alike.visited names elsewhere, visited, elsewhere, Option.filter_some]

theorem take_lacks (lacks : Tree.Lacks place first second)
    (barren : ∀ file inherited, (definitionsAt first file place inherited).1 = [])
    (alike : AlikeBut place progress other)
    (sole : ∀ file, find first folders mention.source mention.beside = .ok file →
      first.file? file = some place →
      ∃ error, find second folders mention.source mention.beside = .error error) :
    AlikeBut place (take first folders mention progress) (take second folders mention other) := by
  unfold take
  rw [fresh?_lacks lacks alike sole]
  cases fresh : fresh? first folders progress mention with
  | none => exact alike
  | some next =>
    obtain ⟨file, names⟩ := next
    by_cases here : names = place
    · rw [Option.filter_some_neg (by simpa using here)]
      dsimp only
      rw [addFile_eq, here, barren]
      refine ⟨alike.components, alike.waiting, ?_⟩
      intro names elsewhere
      simp [alike.visited names elsewhere, elsewhere]
    · rw [Option.filter_some_pos (by simpa using here)]
      dsimp only
      rw [addFile_eq, addFile_eq, definitionsAt_lacks lacks here]
      apply AlikeBut.foldl_add
      refine ⟨alike.components, alike.waiting, ?_⟩
      intro names elsewhere
      simp [alike.visited names elsewhere]

theorem settle_lacks (lacks : Tree.Lacks place first second)
    (barren : ∀ file inherited, (definitionsAt first file place inherited).1 = [])
    (alike : AlikeBut place progress other)
    (sole : progress.Irreplaceable first second folders place) :
    (settle second folders other).components = (settle first folders progress).components := by
  induction progress using settles first folders generalizing other with
  | done progress empty =>
    rw [settle_nil first folders empty, settle_nil second folders (alike.waiting.trans empty)]
    exact alike.components
  | step progress mention waiting waits ih =>
    rw [settle_cons first folders waits, settle_cons second folders (alike.waiting.trans waits)]
    apply ih
    · have rest : AlikeBut place { progress with waiting } { other with waiting } :=
        ⟨alike.components, rfl, alike.visited⟩
      apply take_lacks lacks barren rest
      intro file
      exact sole progress mention waiting file (.refl progress) waits
    · intro reached mention waiting file reaches
      exact sole reached mention waiting file (.take waits reaches)

end
end Progress

/-- One is a result if the other is. -/
def SameSuccess {α β : Type} (first : Except LoadError α) (second : Except LoadError β) : Prop :=
  first.isOk = second.isOk

theorem SameSuccess.bind {α β γ δ : Type} {first : Except LoadError α} {second : Except LoadError β}
    {next : α → Except LoadError γ} {nextToo : β → Except LoadError δ}
    (same : SameSuccess first second) (goesOn : ∀ a b, SameSuccess (next a) (nextToo b)) :
    SameSuccess (first >>= next) (second >>= nextToo) := by
  cases first with
  | error error =>
    cases second with
    | error error => rfl
    | ok b => cases same
  | ok a =>
    cases second with
    | error error => cases same
    | ok b => exact goesOn a b

theorem SameSuccess.map {α β γ δ : Type} {first : Except LoadError α} {second : Except LoadError β}
    (same : SameSuccess first second) (f : α → γ) (g : β → δ) :
    SameSuccess (f <$> first) (g <$> second) := by
  cases first <;> cases second <;> first | rfl | cases same

section
variable (settings settings' : Settings) (bindings : Bindings) (tag : Tag)

theorem sameSuccess_reference (attributeName : String) :
    SameSuccess (reference settings bindings tag attributeName)
      (reference settings' bindings tag attributeName) := by
  unfold reference
  cases tag.attribute? attributeName with
  | none => rfl
  | some value =>
    dsimp only
    split <;>
    · split
      · rfl
      · split <;> rfl

theorem sameSuccess_attributeUse? :
    SameSuccess (attributeUse? settings bindings tag) (attributeUse? settings' bindings tag) := by
  unfold attributeUse?
  dsimp only
  split
  · rfl
  · split
    · exact (sameSuccess_reference settings settings' bindings tag "ref").bind fun _ _ => rfl
    · cases tag.attribute? "name" <;> rfl

theorem sameSuccess_elementDeclaration (inner : Content) (isGlobal : Bool)
    {type type' : Unit → Except LoadError (Option ComplexType)}
    (same : SameSuccess (type ()) (type' ())) :
    SameSuccess (elementDeclaration settings bindings tag inner isGlobal type)
      (elementDeclaration settings' bindings tag inner isGlobal type') := by
  have references := sameSuccess_reference settings settings' bindings tag
  have heads := (references "substitutionGroup").map some some
  unfold elementDeclaration
  cases tag.attribute? "name" with
  | none => rfl
  | some localName =>
    dsimp only
    split
    · apply ((references "type").map TypeUse.named TypeUse.named).bind
      intro _ _
      split
      · exact heads.bind fun _ _ => rfl
      · rfl
    · apply same.bind
      intro first second
      cases first <;> cases second <;>
      · simp only [pure_bind]
        split
        · exact heads.bind fun _ _ => rfl
        · rfl

theorem sameSuccess_globalName :
    SameSuccess (globalName settings tag) (globalName settings' tag) := by
  unfold globalName
  cases tag.attribute? "name" <;> rfl

end

/-- Whether a content can be read, by all the ways of reading one. -/
structure SameFlaws (settings settings' : Settings) (content : Content) : Prop where
  items : ∀ body bindings, SameSuccess (items settings body bindings content)
    (items settings' body bindings content)
  derivedItems : ∀ bindings, SameSuccess (derivedItems settings bindings content)
    (derivedItems settings' bindings content)
  typeInside : ∀ bindings, SameSuccess (typeInside settings bindings content)
    (typeInside settings' bindings content)

theorem sameFlaws (settings settings' : Settings) (content : Content) :
    SameFlaws settings settings' content := by
  induction content with
  | empty => exact ⟨fun _ _ => rfl, fun _ => rfl, fun _ => rfl⟩
  | comment entry rest ih => exact ⟨ih.items, ih.derivedItems, ih.typeInside⟩
  | element tag inner rest ihInner ihRest =>
    have references (bindings : Bindings) := sameSuccess_reference settings settings' bindings tag
    refine ⟨?_, ?_, ?_⟩
    · intro body bindings
      have behind (first second : List Item) :
          SameSuccess (do return first ++ (← items settings body bindings rest))
            (do return second ++ (← items settings' body bindings rest)) :=
        (ihRest.items body bindings).bind fun _ _ => rfl
      rw [Schema.items, Schema.items]
      cases if inSchema tag then body.role tag.name.localName else Role.other with
      | element =>
        dsimp only
        split
        · exact (references _ "ref").bind fun _ _ => behind _ _
        · exact (sameSuccess_elementDeclaration settings settings' _ tag inner false
            (ihInner.typeInside _)).bind fun _ _ => behind _ _
      | compositor => exact (ihInner.items _ _).bind fun _ _ => behind _ _
      | groupReference | attributeGroupReference =>
        exact (references _ "ref").bind fun _ _ => behind _ _
      | attributeUse =>
        exact (sameSuccess_attributeUse? settings settings' _ tag).bind fun _ _ => behind _ _
      | complexContent | simpleContent =>
        exact (ihInner.derivedItems _).bind fun _ _ => behind _ _
      | wildcard | anyAttribute | other => exact behind _ _
    · intro bindings
      have behind (first second : List Item) :
          SameSuccess (do return first ++ (← derivedItems settings bindings rest))
            (do return second ++ (← derivedItems settings' bindings rest)) :=
        (ihRest.derivedItems bindings).bind fun _ _ => rfl
      rw [Schema.derivedItems, Schema.derivedItems]
      cases if inSchema tag then derivation? tag.name.localName else none with
      | none => exact behind _ _
      | some derivation =>
        apply (references _ "base").bind
        intro _ _
        exact (ihInner.items _ _).bind fun _ _ => behind _ _
    · intro bindings
      rw [Schema.typeInside, Schema.typeInside]
      split
      · exact (ihInner.items _ _).bind fun _ _ => rfl
      · exact ihRest.typeInside bindings

/-- Neither the file nor the namespace that is handed down to it counts for what is a flaw. -/
theorem sameSuccess_definition? (settings settings' : Settings) (bindings : Bindings) (tag : Tag)
    (inner : Content) : SameSuccess (definition? settings bindings tag inner)
      (definition? settings' bindings tag inner) := by
  obtain ⟨items, -, type⟩ := sameFlaws settings settings' inner
  have name := sameSuccess_globalName settings settings' tag
  unfold definition?
  split
  · rfl
  · rfl
  · exact (sameSuccess_elementDeclaration settings settings' bindings tag inner true
      (type bindings)).bind fun _ _ => rfl
  · exact name.bind fun _ _ => (items .type bindings).bind fun _ _ => rfl
  · exact name.bind fun _ _ => rfl
  · exact name.bind fun _ _ => (items .group bindings).bind fun _ _ => rfl
  · exact name.bind fun _ _ => (items .attributeGroup bindings).bind fun _ _ => rfl
  · rfl

/-- Whether a child of the schema element is free of flaws. It can be read for any document. -/
def isSound (bindings : Bindings) (child : Element) : Bool :=
  (childDefinition ⟨none, none, false, false⟩ bindings child).isOk

theorem isSound_eq (settings : Settings) (bindings : Bindings) (child : Element) :
    isSound bindings child = (childDefinition settings bindings child).isOk := by
  rw [isSound, childDefinition, childDefinition]
  split
  · exact sameSuccess_definition? _ settings _ child.tag child.content
  · rfl

/-- The children of the schema element up to the first one with a flaw. -/
def soundPart (bindings : Bindings) : Content → Content
  | .empty => .empty
  | .comment entry rest => .comment entry (soundPart bindings rest)
  | .element tag inner rest =>
    if isSound bindings ⟨tag, inner⟩ then .element tag inner (soundPart bindings rest) else .empty

/-- A document without what stands from its first flaw on has the same definitions, and no flaw. -/
theorem definitions_soundPart (settings : Settings) (bindings : Bindings) (content : Content) :
    definitions settings bindings (soundPart bindings content) =
      ((definitions settings bindings content).1, none) := by
  induction content with
  | empty => rfl
  | comment entry rest ih => exact ih
  | element tag inner rest _ ih =>
    rw [soundPart, isSound_eq settings, definitions_element]
    cases made : childDefinition settings bindings ⟨tag, inner⟩ with
    | error error => rfl
    | ok first => simp [Except.isOk, Except.toBool, definitions_element, made, ih]

/-- A file of which nothing is added: a damaged one, one that is no schema, or one with a flaw in
front of all definitions. -/
inductive Barren (bytes : ByteArray) : Prop
  | unreadable {fault} : decode bytes = .error fault → Barren bytes
  | malformed {text error} : decode bytes = .ok text →
    Xml.parse 0 text = .error error → Barren bytes
  | foreign {text document} : decode bytes = .ok text →
    Xml.parse 0 text = .ok document → ¬ IsSchema document → Barren bytes
  | flawed {text document} : decode bytes = .ok text →
    Xml.parse 0 text = .ok document →
    (∀ settings, ∃ error, definitions settings (.enter [] document.root.tag)
      document.root.content = ([], some error)) → Barren bytes

theorem Barren.definitionsAt {tree : Tree} {place : List String} {bytes : ByteArray}
    (barren : Barren bytes) (held : tree.entryAt place = some (.file bytes)) (file : Path)
    (inherited : Option String) : (definitionsAt tree file place inherited).1 = [] := by
  simp only [Schema.definitionsAt, Tree.readAt, held]
  cases barren with
  | unreadable damaged => rw [damaged]
  | malformed read damaged => simp only [read, definitionsIn, damaged]
  | foreign read parsed other => simp only [read, definitionsIn, parsed, definitionsOf, if_neg other]
  | flawed read parsed flaw =>
    simp only [read, definitionsIn, parsed, definitionsOf]
    split
    · obtain ⟨error, nothing⟩ := flaw _
      rw [nothing]
    · rfl

/-- Of a mentioned file with a flaw all that stands in front of the flaw is added, as if the file
ended there. A file of which nothing is added could as well be absent, where no other one is found
in its stead. -/
theorem load_skipped {tree : Tree} {folders : List Path} {place : List String}
    {bytes : ByteArray} {main : MainSchema} (held : tree.entryAt place = some (.file bytes))
    (mentioned : ∀ file, main.file? tree folders ≠ some (file, place)) :
    (∀ (text text' : String) (first second : Document), bytes = text.toUTF8 →
      Xml.parse 0 text = .ok first → Xml.parse 0 text' = .ok second → IsSchema first →
      second.root.unplaced = Element.unplaced
        ⟨first.root.tag, soundPart (.enter [] first.root.tag) first.root.content⟩ →
      main.load (tree.put place (.file text'.toUTF8)) folders = main.load tree folders) ∧
    ∀ without : Tree, Tree.Lacks place tree without → Barren bytes →
      (∀ progress, main.begin tree folders = .ok progress →
        progress.Irreplaceable tree without folders place) →
      main.load without folders = main.load tree folders := by
  constructor
  · intro text text' first second written parsed parsed' schema cut
    subst written
    have tag : second.root.tag.unplaced = first.root.tag.unplaced := congrArg Element.tag cut
    have name := congrArg Tag.name tag
    have attributes := congrArg Tag.attributes tag
    have schema' : IsSchema second := (isSchema_congr name).mpr schema
    have same (file : Path) (inherited : Option String) :
        (definitionsIn (some file) inherited text').1 =
          (definitionsIn (some file) inherited text).1 := by
      have found := definitions_unplaced (settingsOf (some file) inherited first) second.root
      rw [cut, definitions_unplaced, definitions_soundPart] at found
      simp only [definitionsIn, parsed, parsed', definitionsOf, if_pos schema, if_pos schema',
        settingsOf_congr attributes, ← found]
    apply MainSchema.load_put held
    · intro file main
      exact absurd main (mentioned file)
    · intro file inherited
      rw [definitionsAt_text held, definitionsAt_text (Tree.entryAt_put tree place _), same]
  · intro without lacks barren sole
    have added : ∀ file inherited, (definitionsAt tree file place inherited).1 = [] :=
      barren.definitionsAt held
    rw [MainSchema.load_eq, MainSchema.load_eq, begin_lacks lacks mentioned]
    cases begun : main.begin tree folders with
    | error error => rfl
    | ok progress =>
      have alike : Progress.AlikeBut place progress progress := ⟨rfl, rfl, fun _ _ => .rfl⟩
      exact congrArg Except.ok (Progress.settle_lacks lacks added alike (sole progress begun))

/-- A schema that declares `x`, with something behind it. -/
def declaringText (behind : String) : String :=
  "<s:schema xmlns:s='http://www.w3.org/2001/XMLSchema'><s:element name='x'/>" ++ behind ++
    "</s:schema>"

/-- The schema that declares `x` as it is parsed, with the number of bytes in it. -/
def declaring (behind : Content) (stop : Nat) : Document :=
  ⟨[], ⟨⟨⟨some schemaUri, "schema"⟩, some "s", [⟨some "s", schemaUri⟩], [], none, some ⟨0, 0, stop⟩⟩,
    .element ⟨⟨some schemaUri, "element"⟩, some "s", [], [⟨.plain "name", none, "x"⟩], none,
      some ⟨0, 53, 74⟩⟩ .empty behind⟩, []⟩

def oneFile (text : String) : Tree := ⟨[(["b"], .file text.toUTF8)], []⟩

theorem lacks_oneFile (text : String) : Tree.Lacks ["b"] (oneFile text) ⟨[], []⟩ := by
  refine ⟨rfl, ⟨_, rfl⟩, rfl, ?_⟩
  intro names other
  cases names with
  | nil => rfl
  | cons name rest =>
    cases rest with
    | nil =>
      have different : name ≠ "b" := by simpa using other
      simp [Tree.entryAt, oneFile, different, Ne.symm different]
    | cons next rest => simp [Tree.entryAt, oneFile]

theorem irreplaceable_oneFile (text : String) (folders : List Path) (progress : Progress) :
    progress.Irreplaceable (oneFile text) ⟨[], []⟩ folders ["b"] := by
  intro _ mention _ file _ _ _ _
  have lost : (candidates folders mention.source mention.beside).find? (Tree.isFile ⟨[], []⟩) =
      none := by
    apply List.find?_eq_none.mpr
    intro path _ isFile
    obtain ⟨names, known⟩ := Option.isSome_iff_exists.mp isFile
    simpa [Tree.files] using Tree.mem_files_of_file? _ path names known
  exact ⟨_, by rw [find, lost]⟩

def includingB : MainSchema :=
  .text ("<s:schema xmlns:s='http://www.w3.org/2001/XMLSchema'>" ++
    "<s:include schemaLocation='b'/></s:schema>")

set_option maxRecDepth 8000 in
/-- With an element without a name behind it, `x` stays declared. Of what is no document nothing
stays. -/
theorem load_skipped_oneFile :
    ∃ first second,
      Xml.parse 0 (declaringText "<s:element/>") = .ok first ∧
      Xml.parse 0 (declaringText "") = .ok second ∧ IsSchema first ∧
      second.root.unplaced = Element.unplaced
        ⟨first.root.tag, soundPart (.enter [] first.root.tag) first.root.content⟩ ∧
      includingB.load ((oneFile (declaringText "<s:element/>")).put ["b"]
          (.file (declaringText "").toUTF8)) [] =
        includingB.load (oneFile (declaringText "<s:element/>")) [] ∧
      Barren "<".toUTF8 ∧ includingB.load ⟨[], []⟩ [] = includingB.load (oneFile "<") [] := by
  have parsed : Xml.parse 0 (declaringText "<s:element/>") =
      .ok (declaring (.element ⟨⟨some schemaUri, "element"⟩, some "s", [], [], none,
        some ⟨0, 74, 86⟩⟩ .empty .empty) 97) := by rfl
  have parsed' : Xml.parse 0 (declaringText "") = .ok (declaring .empty 85) := by rfl
  have barren : Barren "<".toUTF8 := .malformed (decode_toByteArray "<") (by rfl)
  have mentioned (text : String) (file : Path) :
      includingB.file? (oneFile text) [] ≠ some (file, ["b"]) := by
    simp [includingB, MainSchema.file?]
  refine ⟨_, _, parsed, parsed', by decide, by rfl, ?_, barren, ?_⟩
  · exact (load_skipped rfl (mentioned _)).1 _ _ _ _ rfl parsed parsed' (by decide) (by rfl)
  · exact (load_skipped rfl (mentioned _)).2 _ (lacks_oneFile "<") barren
      fun progress _ => irreplaceable_oneFile "<" [] progress

end KeyholeMarkup.Schema

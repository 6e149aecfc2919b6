import KeyholeMarkup.Schema.Load
import KeyholeMarkup.Proofs.Storage.Written

/-! Loading as a sequence of steps, each of which takes the latest waiting document. A file counts
for it by what it holds when it is taken, and by the namespace that is handed down to it then. -/
namespace KeyholeMarkup.Storage.Tree

/-- The two trees have folders and files in the same places. -/
structure SameShape (first second : Tree) : Prop where
  working : first.working = second.working
  entries : ∀ place, first.entryAt place = second.entryAt place ∨
    ∃ bytes bytes', first.entryAt place = some (.file bytes) ∧
      second.entryAt place = some (.file bytes')

namespace SameShape
variable {first second : Tree} (same : first.SameShape second)
include same

theorem isSome_entryAt (place : List String) :
    (first.entryAt place).isSome = (second.entryAt place).isSome := by
  obtain entry | ⟨bytes, bytes', held, held'⟩ := same.entries place
  · rw [entry]
  · rw [held, held']; rfl

theorem follow (segments : List (List Char)) (place : List String) :
    first.follow place segments = second.follow place segments := by
  induction segments generalizing place with
  | nil => rfl
  | cons segment rest ih =>
    simp only [Tree.follow, ih, same.isSome_entryAt]
    obtain entry | ⟨bytes, bytes', held, held'⟩ := same.entries place
    · rw [entry]
    · rw [held, held']

theorem file? (path : Path) : first.file? path = second.file? path := by
  have located : first.locate path = second.locate path := by
    simp only [Tree.locate, Tree.base, same.working, same.follow]
  simp only [Tree.file?, located]
  cases second.locate path with
  | error fault => rfl
  | ok place =>
    obtain entry | ⟨bytes, bytes', held, held'⟩ := same.entries place
    · simp only [entry]
    · simp only [held, held']

theorem isFile : first.isFile = second.isFile :=
  funext fun path => congrArg Option.isSome (same.file? path)

end SameShape

section
variable {tree : Tree} {place : List String} {bytes : ByteArray}

theorem find?_entries (held : tree.entryAt place = some (.file bytes)) :
    tree.entries.find? (·.1 == place) = some (place, .file bytes) := by
  unfold entryAt at held
  split at held
  · rename_i key entry found
    have same : key = place := by simpa using List.find?_some found
    rw [found, same, Option.some.inj held]
  · split at held <;> cases held

theorem entryAt_put_of_ne (held : tree.entryAt place = some (.file bytes)) (bytes' : ByteArray)
    {names : List String} (other : names ≠ place) :
    (tree.put place (.file bytes')).entryAt names = tree.entryAt names :=
  entryAt_put_of_leadsTo other fun above => leadsTo_above (leadsTo_of_entryAt (by rw [held]; rfl)) above

theorem sameShape_put (held : tree.entryAt place = some (.file bytes)) (bytes' : ByteArray) :
    tree.SameShape (tree.put place (.file bytes')) := by
  refine ⟨rfl, fun names => ?_⟩
  by_cases same : names = place
  · rw [same, held, entryAt_put]
    exact .inr ⟨bytes, bytes', rfl, rfl⟩
  · exact .inl (entryAt_put_of_ne held bytes' same).symm

theorem readAt_put_of_ne (held : tree.entryAt place = some (.file bytes)) (bytes' : ByteArray)
    {names : List String} (other : names ≠ place) :
    (tree.put place (.file bytes')).readAt names = tree.readAt names := by
  rw [readAt, readAt, entryAt_put_of_ne held bytes' other]

end
end KeyholeMarkup.Storage.Tree

namespace KeyholeMarkup.Schema
open KeyholeMarkup.Storage KeyholeMarkup.Xml

theorem find_sameShape {first second : Tree} (same : first.SameShape second) :
    find first = find second := by
  funext folders source beside
  rw [find, find, same.isFile]

/-- What a child of the schema element is read as. -/
def childDefinition (settings : Settings) (bindings : Bindings) (child : Element) :
    Except LoadError (Option Definition) :=
  if inSchema child.tag then definition? settings (bindings.enter child.tag) child.tag child.content
  else .ok none

/-- The definition of a child comes before those behind it. Behind a flaw nothing is read. -/
theorem definitions_element (settings : Settings) (bindings : Bindings) (tag : Tag)
    (inner rest : Content) : definitions settings bindings (.element tag inner rest) =
      match childDefinition settings bindings ⟨tag, inner⟩ with
      | .error error => ([], some error)
      | .ok first => ((first.toList ++ (definitions settings bindings rest).1),
          (definitions settings bindings rest).2) := rfl

/-- What a document says of itself on the schema element. -/
def settingsOf (file : Option Path) (inherited : Option String) (document : Document) : Settings :=
  let tag := document.root.tag
  { file := file
    target := ((tag.attribute? "targetNamespace").filter (· ≠ "")).or inherited
    elementsQualified := tag.attribute? "elementFormDefault" == some "qualified"
    attributesQualified := tag.attribute? "attributeFormDefault" == some "qualified" }

def IsSchema (document : Document) : Prop :=
  inSchema document.root.tag ∧ document.root.tag.name.localName = "schema"

instance (document : Document) : Decidable (IsSchema document) :=
  inferInstanceAs (Decidable (_ ∧ _))

section
variable {first second : Document}

theorem isSchema_congr (name : second.root.tag.name = first.root.tag.name) :
    IsSchema second ↔ IsSchema first := by
  rw [IsSchema, IsSchema, inSchema, inSchema, name]

theorem settingsOf_congr (attributes : second.root.tag.attributes = first.root.tag.attributes)
    (file : Option Path) (inherited : Option String) :
    settingsOf file inherited second = settingsOf file inherited first := by
  simp only [settingsOf, Tag.attribute?, attributes]

end

/-- The definitions that a document adds. The first fault is given with those before it. -/
def definitionsOf (file : Option Path) (inherited : Option String) (document : Document) :
    List Definition × Option LoadError :=
  if IsSchema document then
    definitions (settingsOf file inherited document) (.enter [] document.root.tag)
      document.root.content
  else ([], some (.notSchema file document.root.tag.name.clark))

def definitionsIn (file : Option Path) (inherited : Option String) (text : String) :
    List Definition × Option LoadError :=
  match Xml.parse 0 text with
  | .error error => ([], some (.malformed file error))
  | .ok document => definitionsOf file inherited document

def definitionsAt (tree : Tree) (file : Path) (names : List String) (inherited : Option String) :
    List Definition × Option LoadError :=
  match tree.readAt names with
  | .error fault => ([], some (.unreadable file fault))
  | .ok text => definitionsIn (some file) inherited text

section
variable {tree : Tree} {place : List String}

theorem definitionsAt_text {text : String} (held : tree.entryAt place = some (.file text.toUTF8))
    (file : Path) (inherited : Option String) :
    definitionsAt tree file place inherited = definitionsIn (some file) inherited text := by
  simp only [definitionsAt, Tree.readAt, held, String.toUTF8_eq_toByteArray, decode_toByteArray]

theorem definitionsAt_put_of_ne {bytes bytes' : ByteArray}
    (held : tree.entryAt place = some (.file bytes)) {names : List String} (other : names ≠ place)
    (file : Path) (inherited : Option String) :
    definitionsAt (tree.put place (.file bytes')) file names inherited =
      definitionsAt tree file names inherited := by
  rw [definitionsAt, definitionsAt, Tree.readAt_put_of_ne held bytes' other]

end

namespace Progress
section
variable (progress : Progress) (file : Option Path) (inherited : Option String)

theorem addDocument_eq (document : Document) : progress.addDocument file inherited document =
    ((definitionsOf file inherited document).1.foldl (add (file.map Path.folder)) progress,
      (definitionsOf file inherited document).2) := by
  unfold addDocument definitionsOf
  by_cases schema : IsSchema document
  · rw [if_pos schema]
    exact if_pos schema
  · rw [if_neg schema]
    exact if_neg schema

theorem addText_eq (text : String) : progress.addText file inherited text =
    ((definitionsIn file inherited text).1.foldl (add (file.map Path.folder)) progress,
      (definitionsIn file inherited text).2) := by
  unfold addText definitionsIn
  cases Xml.parse 0 text with
  | error error => rfl
  | ok document => exact addDocument_eq progress file inherited document

theorem addFile_eq (tree : Tree) (file : Path) (names : List String) :
    progress.addFile tree file names inherited =
      ((definitionsAt tree file names inherited).1.foldl (add (some file.folder))
          { progress with visited := names :: progress.visited },
        (definitionsAt tree file names inherited).2) := by
  unfold addFile definitionsAt
  cases tree.readAt names with
  | error fault => rfl
  | ok text => exact addText_eq _ (some file) inherited text

end

section
variable (tree : Tree) (folders : List Path)

/-- The file that a mention leads to, unless it has been read or tried. -/
def fresh? (progress : Progress) (mention : Mention) : Option (Path × List String) := do
  let file ← (find tree folders mention.source mention.beside).toOption
  let names ← tree.file? file
  if progress.visited.contains names then none else return (file, names)

/-- Takes a mention that waits no more. -/
def take (mention : Mention) (rest : Progress) : Progress :=
  match rest.fresh? tree folders mention with
  | none => rest
  | some (file, names) => (rest.addFile tree file names mention.target).1

theorem settle_nil {progress : Progress} (done : progress.waiting = []) :
    settle tree folders progress = progress := by
  rw [settle]
  split
  · rfl
  · rename_i waits
    rw [done] at waits
    cases waits

theorem settle_cons {progress : Progress} {mention : Mention} {waiting : List Mention}
    (waits : progress.waiting = mention :: waiting) :
    settle tree folders progress =
      settle tree folders (take tree folders mention { progress with waiting }) := by
  rw [settle]
  split
  · rename_i done
    rw [waits] at done
    cases done
  · rename_i mention' waiting' waits'
    obtain ⟨rfl, rfl⟩ := List.cons.inj (waits.symm.trans waits')
    simp only [take, fresh?]
    cases found : find tree folders mention.source mention.beside with
    | error error => rfl
    | ok file =>
      simp only [Except.toOption, Option.bind_eq_bind, Option.bind_some]
      cases known : tree.file? file with
      | none => rfl
      | some names => by_cases visited : names ∈ progress.visited <;> simp [visited]

/-- What holds when nothing waits, and of a state if it holds of the next one, holds of all states. -/
theorem settles {motive : Progress → Prop}
    (done : ∀ progress : Progress, progress.waiting = [] → motive progress)
    (step : ∀ (progress : Progress) (mention : Mention) (waiting : List Mention),
      progress.waiting = mention :: waiting →
      motive (take tree folders mention { progress with waiting }) → motive progress)
    (progress : Progress) : motive progress := by
  induction progress using settle.induct tree folders with
  | case1 progress empty => exact done progress empty
  | case2 progress mention waiting waits rest error lost ih =>
    exact step progress mention waiting waits <| by
      simpa [take, fresh?, Except.toOption, lost] using ih
  | case3 progress mention waiting waits rest file found unknown ih =>
    exact step progress mention waiting waits <| by
      simpa [take, fresh?, Except.toOption, found, unknown] using ih
  | case4 progress mention waiting waits rest file found names known visited ih =>
    exact step progress mention waiting waits <| by
      simpa [take, fresh?, Except.toOption, found, known, visited] using ih
  | case5 progress mention waiting waits rest file found names known fresh ih =>
    exact step progress mention waiting waits <| by
      simpa [take, fresh?, Except.toOption, found, known, fresh] using ih

/-- The states that loading comes to from another one. -/
inductive Reaches : Progress → Progress → Prop
  | refl (progress : Progress) : Reaches progress progress
  | take {progress last : Progress} {mention : Mention} {waiting : List Mention} :
    progress.waiting = mention :: waiting →
    Reaches (take tree folders mention { progress with waiting }) last → Reaches progress last

end

theorem settle_congr {tree tree' : Tree} {folders : List Path} {progress : Progress}
    (same : ∀ (reached : Progress) (mention : Mention) (waiting : List Mention),
      Reaches tree folders progress reached → reached.waiting = mention :: waiting →
      take tree folders mention { reached with waiting } =
        take tree' folders mention { reached with waiting }) :
    settle tree folders progress = settle tree' folders progress := by
  induction progress using settles tree folders with
  | done progress empty => rw [settle_nil tree folders empty, settle_nil tree' folders empty]
  | step progress mention waiting waits ih =>
    rw [settle_cons tree folders waits, settle_cons tree' folders waits,
      ← same progress mention waiting (.refl _) waits]
    exact ih fun reached mention waiting next => same reached mention waiting (.take waits next)

/-- A file can be rewritten where it adds the same. -/
theorem settle_put {tree : Tree} {folders : List Path} {place : List String} {bytes bytes' : ByteArray}
    (held : tree.entryAt place = some (.file bytes)) {progress : Progress}
    (same : ∀ (reached : Progress) (mention : Mention) (waiting : List Mention) (file : Path),
      Reaches tree folders progress reached → reached.waiting = mention :: waiting →
      fresh? tree folders { reached with waiting } mention = some (file, place) →
      (definitionsAt tree file place mention.target).1 =
        (definitionsAt (tree.put place (.file bytes')) file place mention.target).1) :
    settle tree folders progress = settle (tree.put place (.file bytes')) folders progress := by
  have shape := Tree.sameShape_put held bytes'
  have found : fresh? (tree.put place (.file bytes')) folders = fresh? tree folders := by
    funext progress mention
    rw [fresh?, fresh?, find_sameShape shape, funext shape.file?]
  apply settle_congr
  intro reached mention waiting reaches waits
  unfold take
  rw [found]
  cases fresh : fresh? tree folders { reached with waiting } mention with
  | none => rfl
  | some next =>
    obtain ⟨file, names⟩ := next
    dsimp only
    rw [addFile_eq, addFile_eq]
    by_cases own : names = place
    · subst own
      rw [same reached mention waiting file reaches waits fresh]
    · rw [definitionsAt_put_of_ne held own]

end Progress

/-- A document with a fault is none to go on with. -/
def Progress.result : Progress × Option LoadError → Except LoadError Progress
  | (_, some error) => .error error
  | (progress, none) => .ok progress

/-- Where loading begins: with a schema given as text, or with one that is looked for. -/
inductive MainSchema
  | text (schema : String)
  | source (name : String)

namespace MainSchema
section
variable (tree : Tree) (folders : List Path)

def load : MainSchema → Except LoadError Components
  | .text schema => ofText tree folders schema
  | .source name => (·.2) <$> Schema.load tree folders name

/-- What is loaded before any mentioned document is. -/
def begin : MainSchema → Except LoadError Progress
  | .text schema => Progress.result (Progress.start.addText none none schema)
  | .source name => do
    let file ← find tree folders name none
    match tree.file? file with
    | none => throw (.unreadable file .missing)
    | some names => Progress.result (Progress.start.addFile tree file names none)

/-- The file of the main schema, if it has one. -/
def file? : MainSchema → Option (Path × List String)
  | .text _ => none
  | .source name => do
    let file ← (find tree folders name none).toOption
    return (file, ← tree.file? file)

/-- The mentioned documents are loaded once the main schema has been. -/
theorem load_eq (main : MainSchema) : main.load tree folders =
    (fun progress => (progress.settle tree folders).components) <$> main.begin tree folders := by
  cases main with
  | text schema =>
    rw [load, begin, ofText]
    obtain ⟨progress, error⟩ := Progress.start.addText none none schema
    cases error <;> rfl
  | source name =>
    rw [load, begin, Schema.load]
    cases find tree folders name none with
    | error error => rfl
    | ok file =>
      simp only [bind, Except.bind]
      cases tree.file? file with
      | none => rfl
      | some names =>
        dsimp only
        obtain ⟨progress, error⟩ := Progress.start.addFile tree file names none
        cases error <;> rfl

end

section
variable {tree tree' : Tree} {folders : List Path} {main : MainSchema}

theorem file?_sameShape (same : tree.SameShape tree') :
    main.file? tree' folders = main.file? tree folders := by
  cases main with
  | text schema => rfl
  | source name => rw [file?, file?, find_sameShape same, funext same.file?]

theorem begin_of_file? {file : Path} {names : List String}
    (found : main.file? tree folders = some (file, names)) :
    main.begin tree folders =
      Progress.result (Progress.start.addFile tree file names none) := by
  cases main with
  | text schema => cases found
  | source name =>
    simp only [file?, Option.bind_eq_bind, Option.bind_eq_some_iff] at found
    obtain ⟨path, sought, place, known, same⟩ := found
    cases same
    rw [begin]
    cases looked : find tree folders name none with
    | error error => simp [looked, Except.toOption] at sought
    | ok path =>
      obtain rfl : path = file := by simpa [looked, Except.toOption] using sought
      simp only [bind, Except.bind, known]

theorem begin_lost {name : String} (lost : (source name).file? tree folders = none) :
    ∃ error, (source name).begin tree folders = .error error := by
  rw [begin]
  simp only [file?, Option.bind_eq_bind] at lost
  cases looked : find tree folders name none with
  | error error => exact ⟨error, rfl⟩
  | ok file =>
    cases known : tree.file? file with
    | none => exact ⟨.unreadable file .missing, by simp only [bind, Except.bind, known]; rfl⟩
    | some names => simp [looked, known, Except.toOption] at lost

/-- Of the files only that of the main schema counts for where loading begins. -/
theorem begin_congr (shape : tree.SameShape tree')
    (same : ∀ file names, main.file? tree folders = some (file, names) →
      definitionsAt tree' file names none = definitionsAt tree file names none) :
    main.begin tree' folders = main.begin tree folders := by
  cases found : main.file? tree folders with
  | some own =>
    obtain ⟨file, names⟩ := own
    have found' := found
    rw [← file?_sameShape shape] at found'
    rw [begin_of_file? found, begin_of_file? found', Progress.addFile_eq, Progress.addFile_eq,
      same file names found]
  | none =>
    cases main with
    | text schema => rfl
    | source name =>
      simp only [begin, ← find_sameShape shape, ← funext shape.file?]
      simp only [file?, Option.bind_eq_bind] at found
      cases looked : find tree folders name none with
      | error error => rfl
      | ok file =>
        cases known : tree.file? file with
        | none => simp only [bind, Except.bind, known]
        | some names => simp [looked, known, Except.toOption] at found

/-- A file can be rewritten where it adds the same. If it is that of the main schema, it must have
the same fault as well, or none. -/
theorem load_put {place : List String} {bytes bytes' : ByteArray}
    (held : tree.entryAt place = some (.file bytes))
    (main_same : ∀ file, main.file? tree folders = some (file, place) →
      definitionsAt (tree.put place (.file bytes')) file place none =
        definitionsAt tree file place none)
    (same : ∀ file inherited, (definitionsAt (tree.put place (.file bytes')) file place inherited).1 =
      (definitionsAt tree file place inherited).1) :
    main.load (tree.put place (.file bytes')) folders = main.load tree folders := by
  have begins : main.begin (tree.put place (.file bytes')) folders = main.begin tree folders := by
    apply begin_congr (Tree.sameShape_put held bytes')
    intro file names found
    by_cases own : names = place
    · subst own
      exact main_same file found
    · exact definitionsAt_put_of_ne held own file none
  rw [load_eq, load_eq, begins]
  congr 1
  funext progress
  rw [← Progress.settle_put held]
  intro _ mention _ file _ _ _
  exact (same file mention.target).symm

end
end MainSchema
end KeyholeMarkup.Schema

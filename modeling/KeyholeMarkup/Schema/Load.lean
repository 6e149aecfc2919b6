import KeyholeMarkup.Schema.Definition
import KeyholeMarkup.Schema.Search
import KeyholeMarkup.Xml.Reader

/-! Loading of a schema with the documents it mentions. Mentioned documents wait in a list, the
latest first, and each file is read once, whatever the paths that lead to it. Only the main document
can fail; of another one that does, the definitions before the fault stay. -/
namespace KeyholeMarkup.Schema
open KeyholeMarkup.Storage KeyholeMarkup.Xml

/-- A document still to be loaded. -/
structure Mention where
  source : String
  /-- The folder of the document that mentions it. -/
  beside : Option Path
  target : Option String
deriving DecidableEq, Repr

structure Progress where
  components : Components
  /-- The files that have been read or tried. -/
  visited : List (List String)
  waiting : List Mention

namespace Components

def add (components : Components) : Definition → Components
  | .mention .. => components
  | .element declaration => components.addElement declaration
  | .type name definition => { components with types := components.types.insert name definition }
  | .group name particle => { components with groups := components.groups.insert name particle }
  | .attributeGroup name group =>
    { components with attributeGroups := components.attributeGroups.insert name group }

end Components

namespace Progress

def start : Progress := ⟨.none, [], []⟩

def add (beside : Option Path) (progress : Progress) (definition : Definition) : Progress :=
  match definition with
  | .mention source target =>
    { progress with waiting := ⟨source, beside, target⟩ :: progress.waiting }
  | definition => { progress with components := progress.components.add definition }

def addDocument (progress : Progress) (file : Option Path) (inherited : Option String)
    (document : Document) : Progress × Option LoadError :=
  let tag := document.root.tag
  if inSchema tag ∧ tag.name.localName = "schema" then
    let settings : Settings :=
      { file := file
        target := ((tag.attribute? "targetNamespace").filter (· ≠ "")).or inherited
        elementsQualified := tag.attribute? "elementFormDefault" == some "qualified"
        attributesQualified := tag.attribute? "attributeFormDefault" == some "qualified" }
    let (found, error) := definitions settings (Bindings.enter [] tag) document.root.content
    (found.foldl (add (file.map Path.folder)) progress, error)
  else (progress, some (.notSchema file tag.name.clark))

def addText (progress : Progress) (file : Option Path) (inherited : Option String)
    (text : String) : Progress × Option LoadError :=
  match Xml.parse 0 text with
  | .error error => (progress, some (.malformed file error))
  | .ok document => progress.addDocument file inherited document

/-- Adds the definitions in a file and marks it as visited. -/
def addFile (progress : Progress) (tree : Tree) (file : Path) (names : List String)
    (inherited : Option String) : Progress × Option LoadError :=
  let progress := { progress with visited := names :: progress.visited }
  match tree.readAt names with
  | .error fault => (progress, some (.unreadable file fault))
  | .ok text => progress.addText (some file) inherited text

theorem visited_add (beside : Option Path) (progress : Progress) (definition : Definition) :
    (progress.add beside definition).visited = progress.visited := by
  cases definition <;> rfl

theorem visited_foldl_add (beside : Option Path) (found : List Definition) (progress : Progress) :
    (found.foldl (add beside) progress).visited = progress.visited := by
  induction found generalizing progress with
  | nil => rfl
  | cons definition found ih => rw [List.foldl_cons, ih, visited_add]

theorem visited_addText (progress : Progress) (file : Option Path) (inherited : Option String)
    (text : String) : (progress.addText file inherited text).1.visited = progress.visited := by
  simp only [addText, addDocument]
  split
  · rfl
  · split
    · exact visited_foldl_add _ _ _
    · rfl

/-- An attempt on a file is the only thing that makes it visited. -/
theorem visited_addFile (progress : Progress) (tree : Tree) (file : Path) (names : List String)
    (inherited : Option String) :
    (progress.addFile tree file names inherited).1.visited = names :: progress.visited := by
  simp only [addFile]
  split
  · rfl
  · exact visited_addText _ _ _ _

def unvisited (progress : Progress) (tree : Tree) : List (List String) :=
  tree.files.filter fun names => !progress.visited.contains names

theorem length_unvisited_addFile (progress : Progress) (tree : Tree) (file : Path)
    (names : List String) (inherited : Option String) (known : names ∈ tree.files)
    (fresh : names ∉ progress.visited) :
    ((progress.addFile tree file names inherited).1.unvisited tree).length <
      (progress.unvisited tree).length := by
  simp only [unvisited, visited_addFile]
  have narrowed : tree.files.filter (fun other => !(names :: progress.visited).contains other) =
      (tree.files.filter fun other => !progress.visited.contains other).filter (· != names) := by
    rw [List.filter_filter]
    apply List.filter_congr
    intro other _
    by_cases same : other = names <;> simp [same]
  rw [narrowed]
  refine List.length_filter_lt_length_iff_exists.2 ⟨names, ?_, by simp⟩
  exact List.mem_filter.2 ⟨known, by simpa using fresh⟩

/-- Loads the waiting documents. One that is not found, or has a fault, is passed over. -/
def settle (tree : Tree) (folders : List Path) (progress : Progress) : Progress :=
  match _h : progress.waiting with
  | [] => progress
  | mention :: waiting =>
    let rest := { progress with waiting }
    match find tree folders mention.source mention.beside with
    | .error _ => settle tree folders rest
    | .ok file =>
      match _known : tree.file? file with
      | none => settle tree folders rest
      | some names =>
        if _fresh : names ∈ progress.visited then settle tree folders rest
        else settle tree folders (rest.addFile tree file names mention.target).1
termination_by ((progress.unvisited tree).length, progress.waiting.length)
decreasing_by
  · exact Prod.Lex.right _ (by simp [_h])
  · exact Prod.Lex.right _ (by simp [_h])
  · exact Prod.Lex.right _ (by simp [_h])
  · exact Prod.Lex.left _ _ (length_unvisited_addFile rest tree file names mention.target
      (tree.mem_files_of_file? file names _known) _fresh)

end Progress

/-- The sources that a schema document mentions before its first flaw. -/
def mentions (text : String) : List String :=
  (Progress.start.addText none none text).1.waiting.map (·.source)

/-- Loads a schema given as text. Mentioned documents are found from the working directory. -/
def ofText (tree : Tree) (folders : List Path) (text : String) : Except LoadError Components :=
  match Progress.start.addText none none text with
  | (_, some error) => .error error
  | (progress, none) => .ok (progress.settle tree folders).components

def load (tree : Tree) (folders : List Path) (source : String) :
    Except LoadError (Path × Components) := do
  let file ← find tree folders source none
  match tree.file? file with
  | none => throw (.unreadable file .missing)
  | some names =>
    match Progress.start.addFile tree file names none with
    | (_, some error) => throw error
    | (progress, none) => return (file, (progress.settle tree folders).components)

end KeyholeMarkup.Schema

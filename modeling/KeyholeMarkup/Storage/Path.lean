import KeyholeMarkup.Text.Blank

/-! Paths of files. A path keeps the text it was given by; two paths are the same if their components
are, so that repeated slashes and dots between slashes do not count. -/
namespace KeyholeMarkup.Storage
open KeyholeMarkup.Text

structure Path where
  text : String
deriving DecidableEq, Repr, Inhabited

inductive Component
  | root
  | here
  | up
  | name (name : List Char)
deriving DecidableEq, Repr

def Component.ofSegment? (segment : List Char) : Option Component :=
  if segment = [] ∨ segment = ['.'] then none
  else if segment = ['.', '.'] then some .up
  else some (.name segment)

namespace Path

def segments (path : Path) : List (List Char) := pieces (· == '/') path.text.toList

def isAbsolute (path : Path) : Bool := path.text.toList.head? == some '/'

/-- A dot counts only at the start of a relative path. -/
def components (path : Path) : List Component :=
  let start : List Component :=
    if path.isAbsolute then [.root] else if path.segments.head? = some ['.'] then [.here] else []
  start ++ path.segments.filterMap Component.ofSegment?

def same (first second : Path) : Bool := first.components == second.components

def name? (path : Path) : Option String :=
  match path.components.getLast? with
  | some (.name name) => some (String.ofList name)
  | _ => none

/-- An absolute path replaces the one it is joined to. -/
def join (base path : Path) : Path :=
  if path.isAbsolute then path
  else
    match base.text.toList.getLast? with
    | none | some '/' => ⟨base.text ++ path.text⟩
    | some _ => ⟨base.text ++ "/" ++ path.text⟩

/-- What comes before the last name, with its slash. -/
def folder (path : Path) : Path :=
  ⟨String.ofList (path.text.toList.reverse.dropWhile (· ≠ '/')).reverse⟩

theorem same_refl (path : Path) : path.same path := by simp [same]

theorem join_absolute (base path : Path) (h : path.isAbsolute) : base.join path = path := by
  simp [join, h]

end Path
end KeyholeMarkup.Storage

import KeyholeMarkup.Storage.Path
import KeyholeMarkup.Text.Bytes

/-! Files and folders, as far as they are known. A place is given by the names that lead to it from
the root; a folder on the way to a known place need not be listed. -/
namespace KeyholeMarkup.Storage
open KeyholeMarkup.Text

inductive Entry
  | file (bytes : ByteArray)
  | folder

structure Tree where
  entries : List (List String × Entry)
  /-- The folder from which relative paths lead. -/
  working : List String

inductive Fault
  | missing
  | notFolder
  | isFolder
  | tooLong
  | notText
deriving DecidableEq, Repr

def Fault.message : Fault → String
  | .missing => "No such file or directory (os error 2)"
  | .notFolder => "Not a directory (os error 20)"
  | .isFolder => "Is a directory (os error 21)"
  | .tooLong => "File name too long (os error 36)"
  | .notText => "stream did not contain valid UTF-8"

def maxNameLength : Nat := 255

def maxPathLength : Nat := 4095

def isTooLong (name : List Char) : Bool := maxNameLength < byteLength name

/-- A path that cannot be that of anything, however the names in it are meant. -/
def Path.fault? (path : Path) : Option Fault :=
  if path.text = "" then some .missing
  else if maxPathLength < byteLength path.text.toList then some .tooLong
  else none

def decode (bytes : ByteArray) : Except Fault String :=
  match String.fromUTF8? bytes with
  | some text => .ok text
  | none => .error .notText

namespace Tree

def entryAt (tree : Tree) (names : List String) : Option Entry :=
  match tree.entries.find? (·.1 == names) with
  | some (_, entry) => some entry
  | none =>
    if names.isPrefixOf tree.working || tree.entries.any (names.isPrefixOf ·.1) then some .folder
    else none

/-- Follows the segments of a path. Each of them, also an empty one, is looked for in a folder, and
the root is its own parent. A name that no file could have is told from one that is missing. -/
def follow (tree : Tree) (place : List String) : List (List Char) → Except Fault (List String)
  | [] => .ok place
  | segment :: rest =>
    match tree.entryAt place with
    | none => .error .missing
    | some (.file _) => .error .notFolder
    | some .folder =>
      match Component.ofSegment? segment with
      | some .up => tree.follow place.dropLast rest
      | some (.name name) =>
        let next := place ++ [String.ofList name]
        if isTooLong name then .error .tooLong
        else if (tree.entryAt next).isSome then tree.follow next rest
        else .error .missing
      | _ => tree.follow place rest

def base (tree : Tree) (path : Path) : List String := if path.isAbsolute then [] else tree.working

def locate (tree : Tree) (path : Path) : Except Fault (List String) :=
  match path.fault? with
  | some fault => .error fault
  | none => tree.follow (tree.base path) path.segments

def file? (tree : Tree) (path : Path) : Option (List String) :=
  match tree.locate path with
  | .ok place =>
    match tree.entryAt place with
    | some (.file _) => some place
    | _ => none
  | .error _ => none

def isFile (tree : Tree) (path : Path) : Bool := (tree.file? path).isSome

def readAt (tree : Tree) (place : List String) : Except Fault String :=
  match tree.entryAt place with
  | none => .error .missing
  | some .folder => .error .isFolder
  | some (.file bytes) => decode bytes

def read (tree : Tree) (path : Path) : Except Fault String := do
  tree.readAt (← tree.locate path)

def put (tree : Tree) (place : List String) (entry : Entry) : Tree :=
  { tree with entries := (place, entry) :: tree.entries.filter (·.1 != place) }

/-- The place where a file can be written: in an existing folder, and not itself a folder. A path
that ends in a slash is one of a folder. -/
def target (tree : Tree) (path : Path) : Except Fault (List String) := do
  if let some fault := path.fault? then throw fault
  let named := (path.segments.reverse.dropWhile (·.isEmpty)).reverse
  let folder ← tree.follow (tree.base path) named.dropLast
  match tree.entryAt folder, named.getLast?.bind Component.ofSegment? with
  | none, _ => throw .missing
  | some (.file _), _ => throw .notFolder
  | some .folder, some (.name name) =>
    let place := folder ++ [String.ofList name]
    if named ≠ path.segments then throw .isFolder
    if isTooLong name then throw .tooLong
    if (tree.entryAt place) matches some .folder then throw .isFolder
    return place
  | some .folder, _ => throw .isFolder

def write (tree : Tree) (path : Path) (text : String) : Except Fault Tree := do
  return tree.put (← tree.target path) (.file text.toUTF8)

def files (tree : Tree) : List (List String) :=
  (tree.entries.filter fun entry => (entry.2 matches .file _)).map (·.1)

theorem mem_files_of_entryAt (tree : Tree) (place : List String) (bytes : ByteArray)
    (h : tree.entryAt place = some (.file bytes)) : place ∈ tree.files := by
  simp only [entryAt] at h
  split at h
  · rename_i key entry found
    have member := List.mem_of_find?_eq_some found
    have same := List.find?_some found
    simp only [beq_iff_eq] at same
    simp only [Option.some.injEq] at h
    subst h same
    exact List.mem_map.2 ⟨_, List.mem_filter.2 ⟨member, rfl⟩, rfl⟩
  · split at h <;> simp at h

theorem mem_files_of_file? (tree : Tree) (path : Path) (place : List String)
    (h : tree.file? path = some place) : place ∈ tree.files := by
  simp only [file?] at h
  split at h
  · split at h
    · rename_i found
      cases h
      exact tree.mem_files_of_entryAt _ _ found
    · simp at h
  · simp at h

/-- What has been put at a place is found there. -/
theorem entryAt_put (tree : Tree) (place : List String) (entry : Entry) :
    (tree.put place entry).entryAt place = some entry := by
  simp [entryAt, put]

end Tree
end KeyholeMarkup.Storage

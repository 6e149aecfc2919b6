import KeyholeMarkup.Command.Run

/-! The program. It takes in the files that a run can look at, and puts out what the run leaves. -/
namespace KeyholeMarkup.Command
open KeyholeMarkup.Storage

/-- Takes in what a path leads to, with the folders on the way. -/
def take (tree : Tree) (path : Path) : IO Tree := do
  let mut tree := tree
  let mut place := tree.base path
  for segment in path.segments do
    match Component.ofSegment? segment with
    | some .up => place := place.dropLast
    | some (.name name) =>
      place := place ++ [String.ofList name]
      if (tree.entryAt place).isNone then
        let location := (← IO.currentDir) / ("/" ++ String.intercalate "/" place)
        if ← location.isDir then tree := tree.put place .folder
        else
          try tree := tree.put place (.file (← IO.FS.readBinFile location))
          catch _ => return tree
    | _ => continue
  return tree

/-- Takes in the schemas that sources lead to and those they mention. -/
partial def takeSchemas (folders : List Path) (tree : Tree) (seen : List (List String)) :
    List (String × Option Path) → IO Tree
  | [] => return tree
  | (source, beside) :: rest => do
    let tree ← (Schema.candidates folders source beside).foldlM take tree
    match Schema.find tree folders source beside with
    | .error _ => takeSchemas folders tree seen rest
    | .ok file =>
      match tree.file? file, tree.read file with
      | some place, .ok text =>
        if seen.contains place then takeSchemas folders tree seen rest
        else
          let mentioned := (Schema.mentions text).map fun source => (source, some file.folder)
          takeSchemas folders tree (place :: seen) (mentioned ++ rest)
      | _, _ => takeSchemas folders tree seen rest

partial def readAll (input : IO.FS.Stream) (bytes : ByteArray) : IO ByteArray := do
  let more ← input.read 65536
  if more.isEmpty then return bytes else readAll input (bytes ++ more)

def surroundings (arguments : List String) : IO Surroundings := do
  let working := (⟨(← IO.currentDir).toString⟩ : Path).components.filterMap fun
    | .name name => some (String.ofList name)
    | _ => none
  let found : Surroundings := ⟨⟨[], working⟩, .empty, ← IO.getEnv "KML_SCHEMA_PATH"⟩
  match parse arguments with
  | .ok (.run invocation) =>
    let folders := (searchFolders found invocation).toOption.getD []
    let tree ← take found.tree ⟨invocation.input⟩
    let tree ← invocation.action.output?.toList.foldlM take tree
    let tree ← takeSchemas folders tree [] (invocation.action.schema?.toList.map fun s => (s, none))
    let stdin ← if invocation.input = "-" then readAll (← IO.getStdin) .empty else pure .empty
    return { found with tree, stdin }
  | _ => return found

end KeyholeMarkup.Command

open KeyholeMarkup.Command in
def main (arguments : List String) : IO UInt32 := do
  let outcome := run (← surroundings arguments) arguments
  IO.print outcome.stdout
  IO.eprint outcome.stderr
  if let some (path, text) := outcome.output then IO.FS.writeFile path.text text
  return outcome.exit.toUInt32

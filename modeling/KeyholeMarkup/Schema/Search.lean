import KeyholeMarkup.Schema.Error

/-! Where a schema is looked for. A source is a path or a web address; of an address only the last
segment counts, as the name of a file in one of the folders to be searched. -/
namespace KeyholeMarkup.Schema
open KeyholeMarkup.Storage KeyholeMarkup.Text

def afterScheme? (source : List Char) : Option (List Char) :=
  let plain := "http://".toList
  let secure := "https://".toList
  if plain.isPrefixOf source then some (source.drop plain.length)
  else if secure.isPrefixOf source then some (source.drop secure.length)
  else none

def addCandidate (candidates : List Path) (candidate : Path) : List Path :=
  if candidates.any (·.same candidate) then candidates else candidates ++ [candidate]

/-- The places to look at, in order: beside the schema that names the source, the path itself, and
the folders to be searched. -/
def candidates (folders : List Path) (source : String) (beside : Option Path) : List Path :=
  match afterScheme? source.toList with
  | some rest =>
    match (pieces (· == '/') rest).reverse.find? (!·.isEmpty) with
    | none => []
    | some name => folders.foldl (fun found folder =>
        addCandidate found (folder.join ⟨String.ofList name⟩)) []
  | none =>
    let path : Path := ⟨source⟩
    let near := if path.isAbsolute then [] else (beside.map (·.join path)).toList
    match path.name? with
    | none => near ++ [path]
    | some name => folders.foldl (fun found folder =>
        addCandidate found (folder.join ⟨name⟩)) (near ++ [path])

def find (tree : Tree) (folders : List Path) (source : String) (beside : Option Path) :
    Except LoadError Path :=
  let tried := candidates folders source beside
  match tried.find? tree.isFile with
  | some path => .ok path
  | none => .error (.notFound source tried)

end KeyholeMarkup.Schema

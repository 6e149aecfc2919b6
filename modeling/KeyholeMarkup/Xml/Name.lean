/-! Qualified names and their Clark notation, `{uri}local`. -/
namespace KeyholeMarkup.Xml

/-- A name with the URI of its namespace, if it is in one. -/
structure Name where
  uri : Option String
  localName : String
deriving DecidableEq, Repr

namespace Name

/-- An empty URI stands for no namespace. -/
def within (uri : Option String) (localName : String) : Name :=
  ⟨uri.filter (· ≠ ""), localName⟩

def plain (localName : String) : Name := ⟨none, localName⟩

def clark (name : Name) : String :=
  match name.uri with
  | some uri => "\x7b" ++ uri ++ "\x7d" ++ name.localName
  | none => name.localName

/-- The namespace and local part of a text in Clark notation, both non-empty. -/
def splitClark? : List Char → Option (List Char × List Char)
  | '{' :: rest =>
    let uri := rest.takeWhile (· ≠ '}')
    let localName := (rest.dropWhile (· ≠ '}')).drop 1
    if uri.isEmpty || localName.isEmpty then none else some (uri, localName)
  | _ => none

/-- Reads Clark notation. A text of another form is a local name as a whole. -/
def ofClark (text : String) : Name :=
  match splitClark? text.toList with
  | some (uri, localName) => ⟨some (String.ofList uri), String.ofList localName⟩
  | none => plain text

/-- No namespace first, then by namespace and local name in code point order. -/
def compare (first second : Name) : Ordering :=
  match first.uri, second.uri with
  | none, some _ => .lt
  | some _, none => .gt
  | none, none => Ord.compare first.localName second.localName
  | some a, some b => (Ord.compare a b).then (Ord.compare first.localName second.localName)

@[simp] theorem within_none (localName : String) : within none localName = plain localName := rfl

@[simp] theorem within_empty (localName : String) : within (some "") localName = plain localName := by
  simp [within, plain]

theorem within_uri_ne_empty (uri : Option String) (localName : String) :
    (within uri localName).uri ≠ some "" := by
  cases uri <;> simp [within]

end Name
end KeyholeMarkup.Xml

import KeyholeMarkup.Xml.Name
import KeyholeMarkup.Xml.Namespaces

/-! The builders of a script: for each namespace, the object whose calls make its elements. -/
namespace KeyholeMarkup.Script
open KeyholeMarkup.Xml

structure Builder where
  uri : String
  /-- The name of the builder in the script. -/
  identifier : String
  /-- The name it is imported by. -/
  factory : String
deriving DecidableEq, Repr

/-- The text before the first occurrence of a character, and the text after it. -/
def splitAtFirst? (mark : Char) : List Char → Option (List Char × List Char)
  | [] => none
  | c :: text =>
    if c = mark then some ([], text)
    else (splitAtFirst? mark text).map fun (before, after) => (c :: before, after)

/-- The namespace and the local part of a name of a script, in Clark notation. A text of another form
is a local part as a whole. -/
def splitQualified (text : String) : Option String × String :=
  match text.toList with
  | '{' :: rest =>
    match splitAtFirst? '}' rest with
    | some (uri, localName) =>
      if uri.isEmpty || localName.isEmpty then (none, text)
      else (some (String.ofList uri), String.ofList localName)
    | none => (none, text)
  | _ => (none, text)

/-- Elements without a namespace are made by the default builder. -/
structure Builders where
  default : String
  entries : List Builder
deriving DecidableEq, Repr

namespace Builders

def standard : Builders :=
  ⟨"KML", [⟨kmlUri, "KML", "KML_ElementMaker"⟩, ⟨atomUri, "ATOM", "ATOM_ElementMaker"⟩,
    ⟨gxUri, "GX", "GX_ElementMaker"⟩]⟩

/-- The builder of a namespace. The first entry counts, and an empty URI is no namespace. -/
def resolve (builders : Builders) (uri : Option String) : Option String :=
  match uri.filter (· ≠ "") with
  | none => some builders.default
  | some uri => (builders.entries.find? (·.uri == uri)).map (·.identifier)

def resolveClark (builders : Builders) (clark : String) : Option String :=
  builders.resolve (splitQualified clark).1

def uriOf? (builders : Builders) (identifier : String) : Option String :=
  (builders.entries.find? (·.identifier == identifier)).map (·.uri)

@[simp] theorem resolve_none (builders : Builders) :
    builders.resolve none = some builders.default := rfl

end Builders
end KeyholeMarkup.Script

import KeyholeMarkup.Proofs.Xml.Tree
import KeyholeMarkup.Xml.Namespaces

/-! Declarations in scope. The tags around a name each declare some prefixes; the nearest declaration
of a prefix says what it stands for. -/
namespace KeyholeMarkup.Xml

/-- The nearest declaration of a prefix, where the tags around, innermost first, have these
declarations. Of those in one tag the last one counts. -/
def nearest? (around : List (List Declaration)) (nsPrefix : Option String) : Option Declaration :=
  (around.flatMap List.reverse).find? (·.nsPrefix == nsPrefix)

/-- The namespace that a prefix stands for, or names without a prefix. The empty URI is none, and
the prefix `xml` needs no declaration. -/
def standsFor? (around : List (List Declaration)) (nsPrefix : Option String) : Option String :=
  match nearest? around nsPrefix with
  | some declaration => if declaration.uri = "" then none else some declaration.uri
  | none => if nsPrefix = some "xml" then some xmlUri else none

/-- The namespaces of the names in a tag. -/
def Tag.uris (tag : Tag) : List String :=
  tag.name.uri.toList ++ tag.attributes.filterMap (·.name.uri)

/-- A tag with the declarations in scope, its own ones first. -/
structure TagWithin where
  tag : Tag
  around : List (List Declaration)

/-- The tags of a content in document order, each with the declarations in scope. -/
def Content.tagsWithin (outer : List (List Declaration)) : Content → List TagWithin
  | .empty => []
  | .comment _ rest => rest.tagsWithin outer
  | .element tag inner rest =>
    ⟨tag, tag.declarations :: outer⟩ :: inner.tagsWithin (tag.declarations :: outer) ++
      rest.tagsWithin outer

def Element.tagsWithin (element : Element) : List TagWithin :=
  ⟨element.tag, [element.tag.declarations]⟩ :: element.content.tagsWithin [element.tag.declarations]

theorem Content.map_tagsWithin (outer : List (List Declaration)) (content : Content) :
    (content.tagsWithin outer).map (·.tag) = content.tags := by
  induction content generalizing outer with
  | empty => rfl
  | comment _ rest ih => exact ih outer
  | element tag inner rest ihInner ihRest => simp [tagsWithin, tags, ihInner, ihRest]

theorem Element.map_tagsWithin (element : Element) :
    element.tagsWithin.map (·.tag) = element.tags := by
  simp [tagsWithin, tags, Content.map_tagsWithin]

end KeyholeMarkup.Xml

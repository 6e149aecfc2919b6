import KeyholeMarkup.Xml.Document
import KeyholeMarkup.Xml.Namespaces

/-! Construction of documents. A maker makes the elements of one namespace; attributes, text and
children are added to an element one by one. -/
namespace KeyholeMarkup.Xml

structure Maker where
  uri : Option String
  nsPrefix : Option String
deriving DecidableEq, Repr

namespace Maker

/-- KML elements, written in the default namespace. -/
def kml : Maker := ⟨some kmlUri, none⟩
def atom : Maker := ⟨some atomUri, some "atom"⟩
def gx : Maker := ⟨some gxUri, some "gx"⟩

def element (maker : Maker) (localName : String) : Element :=
  ⟨⟨Name.within maker.uri localName, maker.nsPrefix, [], [], none, none⟩, .empty⟩

end Maker

namespace Element

def withText (element : Element) (text : String) : Element :=
  { element with tag.text := some text }

def withAttributeAs (element : Element) (entry : Attribute) : Element :=
  { element with tag.attributes := element.tag.attributes ++ [entry] }

/-- Adds an attribute, with the conventional prefix of its namespace. -/
def withAttributeNamed (element : Element) (name : Name) (value : String) : Element :=
  element.withAttributeAs ⟨name, name.uri.bind conventionalPrefix?, value⟩

def withAttribute (element : Element) (localName value : String) : Element :=
  element.withAttributeNamed (.plain localName) value

def withDeclaration (element : Element) (declaration : Declaration) : Element :=
  { element with tag.declarations := element.tag.declarations ++ [declaration] }

def withNode (element : Element) (node : Node) : Element :=
  { element with content := element.content.append (Content.cons node .empty) }

def withChild (element child : Element) : Element := element.withNode (.element child)

def withComment (element : Element) (text : String) : Element :=
  element.withNode (.comment ⟨text, none⟩)

end Element

namespace Document

def ofRoot (root : Element) : Document := ⟨[], root, []⟩

def withLeading (document : Document) (text : String) : Document :=
  { document with leading := document.leading ++ [⟨text, none⟩] }

def withTrailing (document : Document) (text : String) : Document :=
  { document with trailing := document.trailing ++ [⟨text, none⟩] }

end Document
end KeyholeMarkup.Xml

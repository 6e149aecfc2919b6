import KeyholeMarkup.Xml.Naming
import KeyholeMarkup.Xml.Reference

/-! Documents as markup: the tags, texts and comments to be written, with their written names. -/
namespace KeyholeMarkup.Xml

inductive Markup
  | opening (name : String) (attributes : List (String × String))
  | selfClosing (name : String) (attributes : List (String × String))
  | closing (name : String)
  | text (text : String)
  | cdata (text : String)
  | comment (text : String)
  | declaration
deriving DecidableEq, Repr

/-- Puts a character before the first of some texts. -/
def prepend (c : Char) : List (List Char) → List (List Char)
  | [] => [[c]]
  | first :: rest => (c :: first) :: rest

/-- The sections a text is split into so that none contains `]]>`: the two brackets stay in one
section and the angle bracket begins the next. -/
def cdataSections : List Char → List (List Char)
  | ']' :: ']' :: '>' :: rest => [']', ']'] :: prepend '>' (cdataSections rest)
  | c :: rest => prepend c (cdataSections rest)
  | [] => [[]]

/-- How the text of an element is written: by reference or, for the elements listed, in CDATA
sections. -/
def textMarkup (cdata : List Name) (tag : Tag) (text : String) : List Markup :=
  if cdata.contains tag.name then
    (cdataSections text.toList).map fun part => .cdata (String.ofList part)
  else [.text text]

namespace Markup

/-- The markup of a content. An element with neither text nor content is one tag. -/
def ofContent (cdata : List Name) (naming : Naming) : Content → Naming × List Markup
  | .empty => (naming, [])
  | .comment entry rest =>
    let (naming, others) := ofContent cdata naming rest
    (naming, .comment entry.text :: others)
  | .element tag inner rest =>
    let (naming, name, attributes) := naming.tag tag
    match inner, tag.text.filter (· ≠ "") with
    | .empty, none =>
      let (naming, others) := ofContent cdata naming.leave rest
      (naming, .selfClosing name attributes :: others)
    | inner, kept =>
      let (naming, content) := ofContent cdata naming inner
      let (naming, others) := ofContent cdata naming.leave rest
      (naming, .opening name attributes ::
        ((kept.map (textMarkup cdata tag)).getD [] ++ content) ++ .closing name :: others)

def ofElement (cdata : List Name) (element : Element) : List Markup :=
  (ofContent cdata Naming.initial (.element element.tag element.content .empty)).2

def ofDocument (cdata : List Name) (document : Document) : List Markup :=
  document.leading.map (.comment ·.text) ++ ofElement cdata document.root ++
    document.trailing.map (.comment ·.text)

def writeAttribute (entry : String × String) : List Char :=
  ' ' :: entry.1.toList ++ "=\"".toList ++ escape entry.2.toList ++ ['"']

def render : Markup → List Char
  | .opening name attributes =>
    '<' :: name.toList ++ attributes.flatMap writeAttribute ++ ['>']
  | .selfClosing name attributes =>
    '<' :: name.toList ++ attributes.flatMap writeAttribute ++ "/>".toList
  | .closing name => "</".toList ++ name.toList ++ ['>']
  | .text written => escape written.toList
  | .cdata written => "<![CDATA[".toList ++ written.toList ++ "]]>".toList
  | .comment written => "<!--".toList ++ written.toList ++ "-->".toList
  | .declaration => "<?xml version=\"1.0\" encoding=\"UTF-8\"?>".toList

end Markup
end KeyholeMarkup.Xml

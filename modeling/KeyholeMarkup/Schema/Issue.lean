import KeyholeMarkup.Diagnostic.Message
import KeyholeMarkup.Xml.Name

/-! What is reported of a document that does not follow its schema. -/
namespace KeyholeMarkup.Schema
open KeyholeMarkup.Diagnostic KeyholeMarkup.Source KeyholeMarkup.Xml

inductive ComponentKind
  | element
  | type
  | group
  | attributeGroup
deriving DecidableEq, Repr

def ComponentKind.label : ComponentKind → String
  | .element => "element"
  | .type => "type"
  | .group => "group"
  | .attributeGroup => "attribute group"

/-- A component that the schema refers to and does not have. -/
structure Missing where
  kind : ComponentKind
  name : Name
deriving DecidableEq, Repr

/-- Elements are given by their local names, the root and missing components in Clark notation. -/
inductive Violation
  | undeclaredRoot (name : String)
  | abstractElement (element : String)
  | unexpectedChild (child parent : String)
  | childInTextOnly (element child : String)
  | missingAttribute (name element : String)
  | undeclaredAttribute (name element : String)
  | unresolved (kind : ComponentKind) (name : String)
deriving DecidableEq, Repr

namespace Violation

def code : Violation → String
  | .undeclaredRoot _ => "K-3-1"
  | .abstractElement _ => "K-3-2"
  | .unexpectedChild .. => "K-3-3"
  | .childInTextOnly .. => "K-3-4"
  | .missingAttribute .. => "K-3-5"
  | .undeclaredAttribute .. => "K-3-6"
  | .unresolved .. => "K-3-7"

def title : Violation → String
  | .undeclaredRoot _ => "Undeclared Root Element"
  | .abstractElement _ => "Abstract Element"
  | .unexpectedChild .. => "Unexpected Child Element"
  | .childInTextOnly .. => "Child Element in Text-Only Element"
  | .missingAttribute .. => "Missing Required Attribute"
  | .undeclaredAttribute .. => "Undeclared Attribute"
  | .unresolved .. => "Unresolved Type"

def message : Violation → String
  | .undeclaredRoot name => "No global declaration for root element `" ++ name ++ "`"
  | .abstractElement element => "Element `" ++ element ++ "` is abstract"
  | .unexpectedChild child parent =>
    "Element `" ++ child ++ "` is not allowed in `" ++ parent ++ "`"
  | .childInTextOnly element child =>
    "Element `" ++ element ++ "` has a text-only type but contains `" ++ child ++ "`"
  | .missingAttribute name element =>
    "Element `" ++ element ++ "` is missing required attribute `" ++ name ++ "`"
  | .undeclaredAttribute name element =>
    "Attribute `" ++ name ++ "` is not declared for element `" ++ element ++ "`"
  | .unresolved kind name =>
    "The schema references " ++ kind.label ++ " `" ++ name ++ "`, which was not loaded"

def ofMissing (missing : Missing) : Violation := .unresolved missing.kind missing.name.clark

end Violation

structure Issue where
  violation : Violation
  /-- Where the element is in the document, such as `/kml/Document/Placemark[2]`. -/
  path : String
  location : Option Span
deriving DecidableEq, Repr

namespace Issue

def text (issue : Issue) : String := issue.path ++ ": " ++ issue.violation.message

def diagnostic (issue : Issue) : Message :=
  ((((Message.error issue.violation.title).withCode issue.violation.code).withProblem
    issue.violation.message).withDetail .error ("At `" ++ issue.path ++ "`" : String)
    none).withLocation? issue.location

def summary (issues : List Issue) : String :=
  "document is not valid (" ++ toString issues.length ++ " issue(s)); first: " ++
    ((issues.head?.map text).getD "")

end Issue
end KeyholeMarkup.Schema

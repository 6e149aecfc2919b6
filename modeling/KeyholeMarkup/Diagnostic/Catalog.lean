import KeyholeMarkup.Diagnostic.Message

/-! The catalog of diagnostic codes. Codes are `K`, a number for the subsystem and a number within
it. -/
namespace KeyholeMarkup.Diagnostic

/-- What is known of a code. Those with a section in the manual are `documented`. -/
structure CodeInfo where
  code : String
  subsystem : String
  title : String
  documented : Bool
  summary : String
deriving DecidableEq, Repr

namespace Catalog

def since : String := "0.1.0"

def entries : List CodeInfo := [
  ⟨"K-0-1", "internal", "Internal Error", true,
    "An internal error occurred. This is a bug in kml2pykml."⟩,
  ⟨"K-0-99", "internal", "Generic Error", false,
    "An error occurred that has not been assigned a dedicated code."⟩,
  ⟨"K-1-1", "xml", "XML Syntax Error", true,
    "The document is not well-formed XML."⟩,
  ⟨"K-1-2", "xml", "Unexpected End of XML Input", true,
    "The document ended before all elements were closed."⟩,
  ⟨"K-1-3", "xml", "Mismatched XML End Tag", true,
    "An end tag does not match the open element."⟩,
  ⟨"K-1-4", "xml", "Invalid XML Structure", true,
    "The document structure cannot be represented."⟩,
  ⟨"K-1-5", "xml", "Empty XML Document", true,
    "The document contains no root element."⟩,
  ⟨"K-1-6", "xml", "Multiple XML Root Elements", true,
    "The document contains more than one root element."⟩,
  ⟨"K-1-7", "xml", "Unknown Namespace Prefix", true,
    "A prefix is used without a matching xmlns declaration."⟩,
  ⟨"K-1-8", "xml", "Mixed Content Ignored", false,
    "Text after the first child element is not part of the document model."⟩,
  ⟨"K-2-1", "schema", "Schema Not Found", true,
    "The schema could not be found locally."⟩,
  ⟨"K-2-2", "schema", "Schema Read Error", false,
    "The schema file could not be read."⟩,
  ⟨"K-2-3", "schema", "Schema Parse Error", false,
    "The schema is not well-formed XML."⟩,
  ⟨"K-2-4", "schema", "Not an XML Schema", false,
    "The root element of the schema is not xs:schema."⟩,
  ⟨"K-2-5", "schema", "Invalid Schema Reference", false,
    "A schema component references a name that cannot be interpreted."⟩,
  ⟨"K-3-1", "validation", "Undeclared Root Element", true,
    "The root element is not declared by the schema."⟩,
  ⟨"K-3-2", "validation", "Abstract Element", false,
    "An abstract element cannot appear in a document."⟩,
  ⟨"K-3-3", "validation", "Unexpected Child Element", true,
    "The element is not allowed by its parent's content model."⟩,
  ⟨"K-3-4", "validation", "Child Element in Text-Only Element", false,
    "An element with a simple type cannot contain elements."⟩,
  ⟨"K-3-5", "validation", "Missing Required Attribute", false,
    "A required attribute is missing."⟩,
  ⟨"K-3-6", "validation", "Undeclared Attribute", false,
    "The attribute is not declared for this element."⟩,
  ⟨"K-3-7", "validation", "Unresolved Type", false,
    "A type referenced by the schema was not loaded."⟩,
  ⟨"K-4-1", "script", "Unknown Namespace", true,
    "The element's namespace has no builder identifier."⟩,
  ⟨"K-4-2", "script", "No Root Element", false,
    "The event stream contained no element."⟩]

def lookup? (code : String) : Option CodeInfo := entries.find? (·.code == code)

def codes : List String := entries.map (·.code)

end Catalog

def CodeInfo.manual? (info : CodeInfo) : Option String :=
  if info.documented then
    some ("docs/errors.md#" ++ String.ofList (info.code.toList.map Char.toLower))
  else none

def Message.manual? (message : Message) : Option String :=
  message.code.bind fun code => (Catalog.lookup? code).bind CodeInfo.manual?

end KeyholeMarkup.Diagnostic

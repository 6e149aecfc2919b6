import KeyholeMarkup.Diagnostic.Message

/-! What can go wrong in reading or writing a document. -/
namespace KeyholeMarkup.Xml
open KeyholeMarkup.Diagnostic KeyholeMarkup.Source

inductive Error
  | syntaxFault (message : String) (location : Option Span)
  | unexpectedEnd (expected : String) (location : Span)
  | mismatchedEnd (expected found : String) (location : Span)
  /-- Well-formed, but not to be held in a document. -/
  | structureFault (message : String) (location : Span)
  | emptyDocument
  | multipleRoots (location : Span)
  | unknownPrefix (nsPrefix name : String) (location : Span)
  | writeFault (message : String)
deriving DecidableEq, Repr

namespace Error

def location : Error → Option Span
  | .syntaxFault _ location => location
  | .unexpectedEnd _ location | .mismatchedEnd _ _ location | .structureFault _ location
  | .multipleRoots location | .unknownPrefix _ _ location => some location
  | .emptyDocument | .writeFault _ => none

def message : Error → String
  | .syntaxFault message _ => "XML syntax error: " ++ message
  | .unexpectedEnd expected _ => "Unexpected end of input, expected " ++ expected
  | .mismatchedEnd expected found _ =>
    "Mismatched end tag: expected </" ++ expected ++ ">, found </" ++ found ++ ">"
  | .structureFault message _ => "Invalid XML structure: " ++ message
  | .emptyDocument => "Empty XML document: no root element found"
  | .multipleRoots _ => "Invalid XML: multiple root elements"
  | .unknownPrefix nsPrefix name _ =>
    "Unknown namespace prefix `" ++ nsPrefix ++ "` in `" ++ name ++ "`"
  | .writeFault message => "Failed to write XML: " ++ message

def unlocatedDiagnostic : Error → Message
  | .syntaxFault message _ =>
    ((Message.error "XML Syntax Error").withCode "K-1-1").withProblem message
  | .unexpectedEnd expected _ =>
    ((Message.error "Unexpected End of XML Input").withCode "K-1-2").withProblem
      ("The XML document ended unexpectedly; expected " ++ expected : String)
  | .mismatchedEnd expected found _ =>
    ((((((Message.error "Mismatched XML End Tag").withCode "K-1-3").withProblem
      ("End tag `</" ++ found ++ ">` does not match start tag `<" ++ expected ++ ">`" :
        String)).withDetail .error ("Expected: `</" ++ expected ++ ">`" : String) none).withDetail
      .error ("Found: `</" ++ found ++ ">`" : String) none)).withHint
      "Check that all opening tags have matching closing tags?"
  | .structureFault message _ =>
    ((Message.error "Invalid XML Structure").withCode "K-1-4").withProblem message
  | .emptyDocument =>
    (((Message.error "Empty XML Document").withCode "K-1-5").withProblem
      "The XML document contains no root element").withHint
      "Add a `<kml>` root element to the document?"
  | .multipleRoots _ =>
    ((((Message.error "Multiple XML Root Elements").withCode "K-1-6").withProblem
      "The XML document contains multiple root elements").withDetail .error
      "XML documents must have exactly one root element" none).withHint
      "Wrap the elements in a single `<Document>` or `<Folder>`?"
  | .unknownPrefix nsPrefix name _ =>
    (((Message.error "Unknown Namespace Prefix").withCode "K-1-7").withProblem
      ("`" ++ name ++ "` uses the prefix `" ++ nsPrefix ++
        "`, which is not bound to a namespace" : String)).withHint
      ("Declare it with `xmlns:" ++ nsPrefix ++ "=\"...\"` on an enclosing element?" : String)
  | .writeFault message =>
    ((Message.error "Internal Error").withCode "K-0-1").withProblem
      ("Failed to write XML: " ++ message : String)

def diagnostic (error : Error) : Message :=
  error.unlocatedDiagnostic.withLocation? error.location

end Error
end KeyholeMarkup.Xml

import KeyholeMarkup.Diagnostic.Message
import KeyholeMarkup.Xml.Name

/-! What can go wrong in generating a script. -/
namespace KeyholeMarkup.Script
open KeyholeMarkup.Diagnostic KeyholeMarkup.Source

inductive Error
  /-- An element whose namespace has no builder. -/
  | unknownNamespace (uri localName : String) (location : Option Span)
  | noRootElement
deriving DecidableEq, Repr

namespace Error

def location : Error → Option Span
  | .unknownNamespace _ _ location => location
  | .noRootElement => none

def message : Error → String
  | .unknownNamespace uri localName _ =>
    "no builder identifier for namespace `" ++ uri ++ "` (element `" ++ localName ++ "`)"
  | .noRootElement => "the event stream contained no element"

def diagnostic : Error → Message
  | .unknownNamespace uri localName location =>
    ((((((Message.error "Unknown Namespace").withCode "K-4-1").withProblem
      ("Element `" ++ localName ++ "` is in namespace `" ++ uri ++ "`, which has no builder" :
        String)).withDetail .info "Known namespaces are KML 2.2, Atom and the Google extensions"
      none).withHint "Move the element into one of the known namespaces?").withLocation? location)
  | .noRootElement =>
    ((Message.error "No Root Element").withCode "K-4-2").withProblem
      "Nothing to generate: the input has no element"

end Error
end KeyholeMarkup.Script

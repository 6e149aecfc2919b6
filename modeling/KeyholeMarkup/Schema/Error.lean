import KeyholeMarkup.Storage.Tree
import KeyholeMarkup.Xml.Error

/-! What can go wrong in loading a schema. -/
namespace KeyholeMarkup.Schema
open KeyholeMarkup.Diagnostic KeyholeMarkup.Storage

/-- A component of a schema document that cannot be understood. -/
inductive Flaw
  | missingAttribute (element attributeName : String)
  /-- A reference that ends in a colon, or is blank. -/
  | emptyLocalName (written : String)
  | unboundPrefix (written nsPrefix : String)
  | unnamedComponent (kind : String)
  | unnamedElement
  | unnamedAttribute
deriving DecidableEq, Repr

namespace Flaw

def subject : Flaw → String
  | .missingAttribute _ attributeName => attributeName
  | .emptyLocalName written | .unboundPrefix written _ => written
  | .unnamedComponent kind => kind
  | .unnamedElement => "element"
  | .unnamedAttribute => "attribute"

def message : Flaw → String
  | .missingAttribute element attributeName =>
    "`" ++ element ++ "` has no `" ++ attributeName ++ "`"
  | .emptyLocalName _ => "empty local name"
  | .unboundPrefix _ nsPrefix => "prefix `" ++ nsPrefix ++ "` is not bound to a namespace"
  | .unnamedComponent _ => "global component without a name"
  | .unnamedElement => "element without a name or ref"
  | .unnamedAttribute => "attribute without a name or ref"

end Flaw

/-- The file is absent for a schema given as text. -/
inductive LoadError
  | notFound (source : String) (tried : List Path)
  | unreadable (file : Path) (fault : Fault)
  | malformed (file : Option Path) (error : Xml.Error)
  | notSchema (file : Option Path) (root : String)
  | flawed (file : Option Path) (flaw : Flaw)
deriving DecidableEq, Repr

namespace LoadError

def originText : Option Path → String
  | some file => file.text
  | none => "<inline schema>"

def triedText : List Path → String
  | [] => "no locations"
  | tried => String.intercalate ", " (tried.map (·.text))

def message : LoadError → String
  | .notFound source tried =>
    "schema `" ++ source ++ "` not found (tried " ++ triedText tried ++ ")"
  | .unreadable file fault => "failed to read schema `" ++ file.text ++ "`: " ++ fault.message
  | .malformed file error =>
    "schema `" ++ originText file ++ "` is not well-formed: " ++ error.message
  | .notSchema file root =>
    "`" ++ originText file ++ "` is not an XML Schema (root element is `" ++ root ++ "`)"
  | .flawed file flaw =>
    "invalid reference `" ++ flaw.subject ++ "` in `" ++ originText file ++ "`: " ++ flaw.message

def diagnostic : LoadError → Message
  | .notFound source tried =>
    let start := ((Message.error "Schema Not Found").withCode "K-2-1").withProblem
      ("Could not find schema `" ++ source ++ "`" : String)
    let listed := tried.foldl (fun message path =>
      message.withDetail .error ("Tried `" ++ path.text ++ "`" : String) none) start
    (listed.withDetail .info "Schemas are only read from local files" none).withHint
      "Add the directory holding the schema to the search path?"
  | .unreadable file fault =>
    (((Message.error "Schema Read Error").withCode "K-2-2").withProblem
      ("Could not read `" ++ file.text ++ "`" : String)).withDetail .error fault.message none
  | .malformed file error =>
    (((Message.error "Schema Parse Error").withCode "K-2-3").withProblem
      ("`" ++ originText file ++ "` is not well-formed XML" : String)).withDetail .error
      error.message none
  | .notSchema file root =>
    ((Message.error "Not an XML Schema").withCode "K-2-4").withProblem
      ("The root element of `" ++ originText file ++ "` is `" ++ root ++ "`, not `xs:schema`" :
        String)
  | .flawed file flaw =>
    (((Message.error "Invalid Schema Reference").withCode "K-2-5").withProblem
      ("Cannot interpret `" ++ flaw.subject ++ "` in `" ++ originText file ++ "`" : String)).withDetail
      .error flaw.message none

end LoadError
end KeyholeMarkup.Schema

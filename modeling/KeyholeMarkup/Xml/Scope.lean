import KeyholeMarkup.Xml.AttributeList
import KeyholeMarkup.Xml.Namespaces

/-! Namespace bindings in scope. Declarations bind a prefix, or the default namespace, to the value
as written in the tag; the last binding wins. The prefixes `xml` and `xmlns` are bound from the
start and are not bound to anything else. -/
namespace KeyholeMarkup.Xml

/-- A binding of a prefix; the empty one is the default namespace. -/
structure Binding where
  bound : List Char
  uri : List Char
deriving DecidableEq, Repr

/-- The bindings in scope, latest first. -/
abbrev Scope := List Binding

def Scope.predefined : Scope :=
  [⟨"xmlns".toList, xmlnsUri.toList⟩, ⟨"xml".toList, xmlUri.toList⟩]

/-- A declaration that binds a reserved prefix or namespace. -/
inductive BindingFault
  | xmlBound (uri : List Char)
  | xmlnsBound (uri : List Char)
  | bindsXml (bound : List Char)
  | bindsXmlns (bound : List Char)
deriving DecidableEq, Repr

def upperHexDigit (n : Nat) : Char := "0123456789ABCDEF".toList[n]?.getD '0'

/-- A byte in quoted form: printable ASCII as it is, others in hexadecimal. -/
def quoteByte (byte : UInt8) : List Char :=
  let n := byte.toNat
  if n = 34 then ['\\', '"']
  else if 32 ≤ n ∧ n ≤ 126 then [Char.ofNat n]
  else if n < 16 then ['0', 'x', upperHexDigit n]
  else ['0', 'x', upperHexDigit (n / 16), upperHexDigit (n % 16)]

def quoteBytes (text : List Char) : String :=
  String.ofList ('"' :: (text.flatMap String.utf8EncodeChar).flatMap quoteByte ++ ['"'])

def BindingFault.message : BindingFault → String
  | .xmlBound uri =>
    "the namespace prefix 'xml' cannot be bound to '" ++ quoteBytes uri ++ "'"
  | .xmlnsBound uri =>
    "the namespace prefix 'xmlns' cannot be bound to '" ++ quoteBytes uri ++ "'"
  | .bindsXml bound =>
    "the namespace prefix '" ++ quoteBytes bound ++ "' cannot be bound to '" ++ xmlUri ++ "'"
  | .bindsXmlns bound =>
    "the namespace prefix '" ++ quoteBytes bound ++ "' cannot be bound to '" ++ xmlnsUri ++ "'"

/-- The prefix that an attribute of this name declares; none for the default namespace. -/
def declaredPrefix? (name : List Char) : Option (Option (List Char)) :=
  match name with
  | 'x' :: 'm' :: 'l' :: 'n' :: 's' :: [] => some none
  | 'x' :: 'm' :: 'l' :: 'n' :: 's' :: ':' :: bound => some (some bound)
  | _ => none

namespace Scope

def declare (scope : Scope) (entry : WrittenAttribute) : Except BindingFault Scope :=
  match declaredPrefix? entry.name with
  | none => .ok scope
  | some none => .ok (⟨[], entry.value⟩ :: scope)
  | some (some bound) =>
    if bound = "xml".toList then
      if entry.value = xmlUri.toList then .ok scope else .error (.xmlBound entry.value)
    else if bound = "xmlns".toList then .error (.xmlnsBound entry.value)
    else if entry.value = xmlUri.toList then .error (.bindsXml bound)
    else if entry.value = xmlnsUri.toList then .error (.bindsXmlns bound)
    else .ok (⟨bound, entry.value⟩ :: scope)

/-- The scope inside a tag. Of a faulty attribute list the part before the fault counts. -/
def enter (scope : Scope) (content : List Char) : Except BindingFault Scope :=
  (tagAttributes false content).attributes.foldlM declare scope

/-- The namespace of names with a prefix, or of element names without one. The empty URI takes a
binding back. A prefix without a binding is returned as the error. -/
def resolve (scope : Scope) (bound : Option (List Char)) :
    Except (List Char) (Option (List Char)) :=
  match bound with
  | none => .ok ((scope.find? (·.bound.isEmpty)).bind fun binding =>
      if binding.uri.isEmpty then none else some binding.uri)
  | some bound =>
    match scope.find? fun binding => !binding.bound.isEmpty && binding.bound == bound with
    | none => .error bound
    | some binding => if binding.uri.isEmpty then .error bound else .ok (some binding.uri)

end Scope

/-- A written name apart: the part before the first colon, if there is one, and the rest. -/
def splitName (name : List Char) : Option (List Char) × List Char :=
  match name.dropWhile (· ≠ ':') with
  | [] => (none, name)
  | _ :: rest => (some (name.takeWhile (· ≠ ':')), rest)

end KeyholeMarkup.Xml

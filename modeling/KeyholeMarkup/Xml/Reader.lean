import KeyholeMarkup.Text.Blank
import KeyholeMarkup.Xml.Build
import KeyholeMarkup.Xml.Error
import KeyholeMarkup.Xml.Reference
import KeyholeMarkup.Xml.Scope

/-! Reading of documents. The tokens of the text are taken one by one; the elements open so far are
kept with what they hold. Names are resolved in the scope of their tag, positions are recorded, and
text after the first child of an element is dropped with a warning. -/
namespace KeyholeMarkup.Xml
open KeyholeMarkup.Diagnostic KeyholeMarkup.Source KeyholeMarkup.Text

/-- An element whose closing tag has not been read. Its text is held as pieces and its children as
nodes, last one first. -/
structure OpenElement where
  name : Name
  written : List Char
  nsPrefix : Option String
  declarations : List Declaration
  attributes : List Attribute
  start : Nat
  text : Option (List Char)
  children : List Node
  scope : Scope

/-- Text is dropped if it is empty, or if it is blank and the element has children. -/
def OpenElement.keptText (element : OpenElement) : Option String :=
  match element.text with
  | none => none
  | some text =>
    if text.isEmpty || (!element.children.isEmpty && allBlank text) then none
    else some (String.ofList text)

def OpenElement.close (element : OpenElement) (span : Span) : Element :=
  ⟨⟨element.name, element.nsPrefix, element.declarations, element.attributes, element.keptText,
    some span⟩, Content.ofNodes element.children.reverse⟩

/-- What has been read so far: the open elements, innermost first, the comments beside the root
and the warnings, last one first, and the root once it is closed. -/
structure Reader where
  file : Nat
  path : List OpenElement
  leading : List Comment
  trailing : List Comment
  root : Option Element
  warnings : List Message

namespace Reader

def initial (file : Nat) : Reader := ⟨file, [], [], [], none, []⟩

def span (reader : Reader) (start stop : Nat) : Span := .between reader.file start stop

def scope (reader : Reader) : Scope :=
  match reader.path with
  | element :: _ => element.scope
  | [] => Scope.predefined

def resolved (name : List Char) (location : Span) :
    Except (List Char) (Option (List Char)) → Except Error (Option String)
  | .ok uri => .ok (uri.map String.ofList)
  | .error bound => .error (.unknownPrefix (String.ofList bound) (String.ofList name) location)

/-- An attribute of a tag is a declaration or an attribute of the element. Names without a prefix
are in no namespace. -/
def entryOf (scope : Scope) (location : Span) (entry : WrittenAttribute) :
    Except Error (Declaration ⊕ Attribute) := do
  let value ←
    match expandReferences (normalizeValue entry.value) with
    | .ok value => pure (String.ofList value)
    | .error fault =>
      .error (.syntaxFault ("Invalid attribute value: " ++ fault.message) (some location))
  match declaredPrefix? entry.name with
  | some bound => return .inl ⟨bound.map String.ofList, value⟩
  | none =>
    let (bound, localName) := splitName entry.name
    let uri ←
      match bound with
      | none => pure none
      | some _ => resolved entry.name location (scope.resolve bound)
    return .inr ⟨Name.within uri (String.ofList localName), bound.map String.ofList, value⟩

/-- The element that a tag opens. -/
def openTag (reader : Reader) (content : List Char) (start stop : Nat) :
    Except Error OpenElement := do
  let location := reader.span start stop
  let scope ←
    match reader.scope.enter content with
    | .ok scope => pure scope
    | .error fault => .error (.syntaxFault fault.message (some (reader.span 0 0)))
  if reader.path.isEmpty && reader.root.isSome then .error (.multipleRoots location)
  let written := tagName content
  let (bound, localName) := splitName written
  let uri ← resolved written location (scope.resolve bound)
  let list := tagAttributes true content
  let entries ← list.attributes.mapM (entryOf scope location)
  if let some fault := list.fault then
    .error (.syntaxFault ("Attribute error: " ++ fault.message) none)
  return {
    name := Name.within uri (String.ofList localName)
    written
    nsPrefix := bound.map String.ofList
    declarations := entries.filterMap Sum.getLeft?
    attributes := entries.filterMap Sum.getRight?
    start
    text := none
    children := []
    scope }

/-- Adds a node to the innermost open element or beside the root. -/
def attach (reader : Reader) (node : Node) : Reader :=
  match reader.path, node with
  | parent :: outer, node =>
    { reader with path := { parent with children := node :: parent.children } :: outer }
  | [], .element element => { reader with root := some element }
  | [], .comment comment =>
    if reader.root.isNone then { reader with leading := comment :: reader.leading }
    else { reader with trailing := comment :: reader.trailing }

def closeTag (reader : Reader) (name : List Char) (start stop : Nat) : Except Error Reader :=
  match reader.path with
  | [] =>
    .error (.syntaxFault ("ill-formed document: close tag `</" ++ String.ofList name ++
      ">` does not match any open tag") (some (reader.span start start)))
  | element :: outer =>
    if element.written = name then
      .ok ({ reader with path := outer }.attach
        (.element (element.close (reader.span element.start stop))))
    else
      .error (.mismatchedEnd (String.ofList element.written) (String.ofList name)
        (reader.span start stop))

/-- The warning about text that is not kept. -/
def droppedText (element : OpenElement) (text : List Char) (location : Span) : Message :=
  ((((Message.warning "Mixed Content Ignored").withCode "K-1-8").withProblem
    ("Text after the first child of `<" ++ String.ofList element.written ++ ">` is not kept" :
      String)).withDetail .info
    ("Dropped text: `" ++ String.ofList (trim text) ++ "`" : String) none).withLocation location

/-- Adds character data. Outside the root it must be blank. -/
def addText (reader : Reader) (text : List Char) (start stop : Nat) : Except Error Reader :=
  let location := reader.span start stop
  match reader.path with
  | [] =>
    if allBlank text then .ok reader
    else .error (.structureFault "Text content outside the root element" location)
  | element :: outer =>
    if element.children.isEmpty then
      let whole := element.text.getD [] ++ text
      .ok { reader with path := { element with text := some whole } :: outer }
    else if allBlank text then .ok reader
    else .ok { reader with warnings := droppedText element text location :: reader.warnings }

def step (reader : Reader) (lexeme : Lexeme) : Except Error Reader :=
  let { token, start, stop } := lexeme
  match token with
  | .opening content => do
    let element ← reader.openTag content start stop
    return { reader with path := element :: reader.path }
  | .selfClosing content => do
    let element ← reader.openTag content start stop
    return reader.attach (.element (element.close (reader.span start stop)))
  | .closing name => reader.closeTag name start stop
  | .text raw =>
    match expandReferences (normalizeLineEnds raw) with
    | .ok text => reader.addText text start stop
    | .error fault =>
      .error (.syntaxFault ("Invalid text content: " ++ fault.message)
        (some (reader.span start stop)))
  | .cdata raw => reader.addText (normalizeLineEnds raw) start stop
  | .comment raw =>
    .ok (reader.attach (.comment
      ⟨String.ofList (normalizeLineEnds raw), some (reader.span start stop)⟩))
  | .other => .ok reader

def document (reader : Reader) : Except Error Document :=
  match reader.path, reader.root with
  | element :: _, _ =>
    .error (.unexpectedEnd ("closing tag </" ++ String.ofList element.written ++ ">")
      (reader.span element.start (element.start + 1)))
  | [], none => .error .emptyDocument
  | [], some root => .ok ⟨reader.leading.reverse, root, reader.trailing.reverse⟩

/-- Takes tokens up to the first error, which is returned with what had been read before it. -/
def run (reader : Reader) : List Lexeme → Reader × Option Error
  | [] => (reader, none)
  | lexeme :: rest =>
    match reader.step lexeme with
    | .ok reader => reader.run rest
    | .error error => (reader, some error)

end Reader

/-- The outcome of reading: a document or an error, and the warnings in order. -/
structure Reading where
  result : Except Error Document
  warnings : List Message

/-- The text without a byte order mark at its start. Positions count from after the mark. -/
def withoutMark : List Char → List Char
  | '\ufeff' :: rest => rest
  | text => text

def read (file : Nat) (text : String) : Reading :=
  let { lexemes, fault } := Lexemes.ofText (withoutMark text.toList)
  let (reader, error) := (Reader.initial file).run lexemes
  let result :=
    match error, fault with
    | some error, _ => .error error
    | none, some (fault, offset) =>
      .error (.syntaxFault fault.message (some (reader.span offset offset)))
    | none, none => reader.document
  ⟨result, reader.warnings.reverse⟩

def parse (file : Nat) (text : String) : Except Error Document := (read file text).result

end KeyholeMarkup.Xml

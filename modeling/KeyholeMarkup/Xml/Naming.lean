import KeyholeMarkup.Xml.Document
import KeyholeMarkup.Xml.Namespaces

/-! Written names. Each open element has a frame of declarations; a name is written with a prefix
that stands for its namespace there, and a declaration is added where there is none. Names of
elements may use the default namespace, names of attributes may not. -/
namespace KeyholeMarkup.Xml

/-- The declarations of the open elements, innermost first, and the number of prefixes made up. -/
structure Naming where
  frames : List (List Declaration)
  generated : Nat
deriving DecidableEq, Repr

namespace Naming

def initial : Naming := ⟨[], 0⟩

def enter (naming : Naming) (declarations : List Declaration) : Naming :=
  { naming with frames := declarations :: naming.frames }

def leave (naming : Naming) : Naming := { naming with frames := naming.frames.drop 1 }

def here (naming : Naming) : List Declaration := naming.frames.headD []

/-- All declarations in scope, latest first. -/
def declarations (naming : Naming) : List Declaration := naming.frames.flatMap List.reverse

/-- The namespace that a prefix stands for; the empty URI is none. -/
def lookup? (naming : Naming) (nsPrefix : Option String) : Option String :=
  ((naming.declarations.find? (·.nsPrefix == nsPrefix)).map (·.uri)).filter (· ≠ "")

def isDeclaredHere (naming : Naming) (nsPrefix : Option String) : Bool :=
  naming.here.any (·.nsPrefix == nsPrefix)

def declare (naming : Naming) (nsPrefix : Option String) (uri : String) : Naming :=
  match naming.frames with
  | frame :: outer => { naming with frames := (frame ++ [⟨nsPrefix, uri⟩]) :: outer }
  | [] => naming

/-- A prefix that stands for a namespace. -/
def prefixFor? (naming : Naming) (uri : String) : Option String :=
  (naming.declarations.filterMap fun entry => if entry.uri = uri then entry.nsPrefix else none).find?
    fun nsPrefix => naming.lookup? (some nsPrefix) == some uri

def madeUp (number : Nat) : String := "ns" ++ toString number

def isFree (naming : Naming) (nsPrefix : String) : Bool :=
  (naming.lookup? (some nsPrefix)).isNone && !naming.isDeclaredHere (some nsPrefix)

/-- The next number whose made-up prefix is free. Each declaration takes at most one of them, so
there is one among the next numbers, one more than there are declarations. -/
def freshNumber (naming : Naming) : Nat :=
  let count := naming.declarations.length
  (((List.range (count + 1)).map (naming.generated + 1 + ·)).find?
    fun number => naming.isFree (madeUp number)).getD (naming.generated + count + 1)

/-- Makes up a prefix for a namespace and declares it. -/
def declareFresh (naming : Naming) (uri : String) : Naming × String :=
  let number := naming.freshNumber
  (({ naming with generated := number }).declare (some (madeUp number)) uri, madeUp number)

def written (nsPrefix localName : String) : String := nsPrefix ++ ":" ++ localName

/-- The name of an element within its own frame. Its own prefix comes first, then the default
namespace, then a prefix made up. -/
def elementName (naming : Naming) (tag : Tag) : Naming × String :=
  let localName := tag.name.localName
  let otherwise (uri : String) : Naming × String :=
    if naming.isDeclaredHere none then
      let (naming, made) := naming.declareFresh uri
      (naming, written made localName)
    else (naming.declare none uri, localName)
  match tag.name.uri with
  | none =>
    if (naming.lookup? none).isSome then (naming.declare none "", localName)
    else (naming, localName)
  | some uri =>
    match tag.nsPrefix with
    | some own =>
      if naming.lookup? (some own) = some uri then (naming, written own localName)
      else if naming.isDeclaredHere (some own) then otherwise uri
      else (naming.declare (some own) uri, written own localName)
    | none => if naming.lookup? none = some uri then (naming, localName) else otherwise uri

/-- The name of an attribute. Its own prefix comes first, then any prefix of the namespace, then a
new declaration, of its own prefix if that is free. -/
def attributeName (naming : Naming) (entry : Attribute) : Naming × String :=
  let localName := entry.name.localName
  match entry.name.uri with
  | none => (naming, localName)
  | some uri =>
    if uri = xmlUri then (naming, written "xml" localName)
    else
      match entry.nsPrefix.filter fun own => naming.lookup? (some own) = some uri with
      | some own => (naming, written own localName)
      | none =>
        match naming.prefixFor? uri with
        | some found => (naming, written found localName)
        | none =>
          match entry.nsPrefix.filter fun own => !naming.isDeclaredHere (some own) with
          | some own => (naming.declare (some own) uri, written own localName)
          | none =>
            let (naming, made) := naming.declareFresh uri
            (naming, written made localName)

def attributeNames (naming : Naming) : List Attribute → Naming × List (String × String)
  | [] => (naming, [])
  | entry :: rest =>
    let (naming, name) := naming.attributeName entry
    let (naming, others) := naming.attributeNames rest
    (naming, (name, entry.value) :: others)

end Naming

/-- The attribute by which a prefix is declared. -/
def Declaration.written (declaration : Declaration) : String × String :=
  match declaration.nsPrefix with
  | some nsPrefix => ("xmlns:" ++ nsPrefix, declaration.uri)
  | none => ("xmlns", declaration.uri)

/-- The name and attributes of a tag as written: declarations first. The frame of the element is
left open. -/
def Naming.tag (naming : Naming) (tag : Tag) : Naming × String × List (String × String) :=
  let (naming, name) := (naming.enter tag.declarations).elementName tag
  let (naming, attributes) := naming.attributeNames tag.attributes
  (naming, name, naming.here.map Declaration.written ++ attributes)

end KeyholeMarkup.Xml

import KeyholeMarkup.Schema.Admission
import KeyholeMarkup.Xml.Document

/-! Validation of documents. Every element is assessed against its declaration, which gives the
issues with the element and its children and what each child is to be checked against; then the
children follow in order. A missing component is reported where it is first come upon. -/
namespace KeyholeMarkup.Schema
open KeyholeMarkup.Source KeyholeMarkup.Xml

inductive Target
  | declared (declaration : ElementDeclaration)
  /-- Checked if it has a global declaration. -/
  | lax
  | skip

def tally (names : List Name) : Table Nat :=
  names.foldl (fun counts name => counts.insert name ((counts.find? name).getD 0 + 1)) []

/-- The steps to the children of an element. The children that share a name are numbered. -/
def stepsFrom (totals seen : Table Nat) : List Name → List String
  | [] => []
  | name :: names =>
    let position := (seen.find? name).getD 0 + 1
    let step := if 1 < (totals.find? name).getD 0 then
      name.localName ++ "[" ++ toString position ++ "]" else name.localName
    step :: stepsFrom totals (seen.insert name position) names

def childPaths (path : String) (names : List Name) : List String :=
  (stepsFrom (tally names) [] names).map fun step => path ++ "/" ++ step

namespace Components

def missingIssue (path : String) (missing : Missing) : Issue :=
  ⟨.ofMissing missing, path, Option.none⟩

def missingAttributes (type : EffectiveType) (element : Element) (path : String) : List Issue :=
  (type.attributes.filter fun entry =>
    entry.required && (element.attributeNamed? entry.name).isNone).map fun entry =>
      ⟨.missingAttribute entry.name.clark element.name.localName, path, element.tag.span⟩

/-- An attribute in another namespace than its element need not be declared. -/
def undeclaredAttributes (type : EffectiveType) (element : Element) (path : String) : List Issue :=
  (element.tag.attributes.filter fun entry =>
    !(entry.name.uri.isSome && entry.name.uri != element.name.uri) &&
      !type.attributes.any (·.name == entry.name)).map fun entry =>
        ⟨.undeclaredAttribute entry.name.clark element.name.localName, path, element.tag.span⟩

def attributeIssues (type : EffectiveType) (element : Element) (path : String) : List Issue :=
  match type.content with
  | .any => []
  | _ =>
    missingAttributes type element path ++
      if type.anyAttribute then [] else undeclaredAttributes type element path

def globalTarget (components : Components) (name : Name) : Target :=
  match components.elements.find? name with
  | some declaration => .declared declaration
  | .none => .lax

def assessChild (components : Components) (particles : List Particle) (element : Element)
    (path : String) (child : Element) (childPath : String) : List Issue × Target :=
  match particles.findSome? (components.admission child.name referenceDepth) with
  | some (.declared declaration) => ([], .declared declaration)
  | some (.wildcard .skip) => ([], .skip)
  | some (.wildcard _) => ([], .lax)
  | some (.unresolved missing) => ([missingIssue path missing], .skip)
  | .none =>
    ([⟨.unexpectedChild child.name.localName element.name.localName, childPath, child.tag.span⟩],
      .skip)

/-- Assesses an element against its declaration. The targets are those of its children in order;
where there is none, the children are not checked. -/
def assessDeclared (components : Components) (declaration : ElementDeclaration) (element : Element)
    (path : String) : List Issue × List Target :=
  if declaration.isAbstract then
    ([⟨.abstractElement element.name.localName, path, element.tag.span⟩], [])
  else
    let type := components.typeOf referenceDepth declaration
    let children := element.content.elements
    let own := type.missing.map (missingIssue path) ++ attributeIssues type.result element path
    match type.result.content with
    | .any => (own, children.map fun child => components.globalTarget child.name)
    | .textOnly =>
      let inside := children.head?.toList.map fun child : Element =>
        ⟨.childInTextOnly element.name.localName child.name.localName, path, child.tag.span⟩
      (own ++ inside, [])
    | .particles particles =>
      let assessed := (children.zip (childPaths path (children.map (·.name)))).map
        fun (child, childPath) =>
          components.assessChild particles element path child childPath
      (own ++ assessed.flatMap (·.1), assessed.map (·.2))

def assess (components : Components) (target : Target) (element : Element) (path : String) :
    List Issue × List Target :=
  match target with
  | .declared declaration => components.assessDeclared declaration element path
  | .skip => ([], [])
  | .lax =>
    match components.elements.find? element.name with
    | some declaration => components.assessDeclared declaration element path
    | .none => ([], element.content.elements.map fun _ => .lax)

/-- The issues in a content whose elements have these targets and paths. -/
def visit (components : Components) : List (Target × String) → Content → List Issue
  | targets, .comment _ rest => components.visit targets rest
  | (target, path) :: targets, .element tag inner rest =>
    let (issues, inside) := components.assess target ⟨tag, inner⟩ path
    let paths := childPaths path (inner.elements.map (·.name))
    issues ++ components.visit (inside.zip paths) inner ++ components.visit targets rest
  | [], .element .. | _, .empty => []

/-- The issues without those that report a missing component once more. -/
def firstReports (reported : List Violation) : List Issue → List Issue
  | [] => []
  | issue :: issues =>
    match issue.violation with
    | .unresolved .. =>
      if reported.contains issue.violation then firstReports reported issues
      else issue :: firstReports (issue.violation :: reported) issues
    | _ => issue :: firstReports reported issues

/-- All issues with a document, in document order. The document is valid if there are none. -/
def issues (components : Components) (document : Document) : List Issue :=
  let root := document.root
  let path := "/" ++ root.name.localName
  match components.elements.find? root.name with
  | .none => [⟨.undeclaredRoot root.name.clark, path, root.tag.span⟩]
  | some declaration =>
    firstReports [] (components.visit [(.declared declaration, path)]
      (.element root.tag root.content .empty))

end Components
end KeyholeMarkup.Schema

import KeyholeMarkup.OrderedMap
import KeyholeMarkup.Xml.Walk

/-! Counts of the elements of a document by namespace and local name. Both levels are sorted, the
elements without a namespace first. -/
namespace KeyholeMarkup.Xml

abbrev NameCounts := List (String × Nat)

abbrev ElementCounts := List (Option String × NameCounts)

/-- The order of namespaces: none before any. -/
def uriBefore : Option String → Option String → Bool
  | none, some _ => true
  | some first, some second => OrderedMap.textBefore first second
  | _, none => false

def NameCounts.add (localName : String) (counts : NameCounts) : NameCounts :=
  OrderedMap.set OrderedMap.textBefore localName (fun count => count.getD 0 + 1) counts

def ElementCounts.add (name : Name) (counts : ElementCounts) : ElementCounts :=
  OrderedMap.set uriBefore name.uri (fun names => NameCounts.add name.localName (names.getD [])) counts

def Document.counts (document : Document) : ElementCounts :=
  document.events.foldl (fun counts event =>
    match event with
    | .opened element => ElementCounts.add element.name counts
    | _ => counts) []

end KeyholeMarkup.Xml

import KeyholeMarkup.Text.Blank
import KeyholeMarkup.Xml.Namespaces
import KeyholeMarkup.Xml.Walk

/-! The polygons of a document as well-known text. Coordinates keep all their components. -/
namespace KeyholeMarkup.Geometry
open KeyholeMarkup.Text KeyholeMarkup.Xml

def kmlName (localName : String) : Name := ⟨some kmlUri, localName⟩

def kmlChildren (element : Element) (localName : String) : List Element :=
  element.content.elements.filter (·.name == kmlName localName)

/-- The tuples of a coordinates text: commas separate components and blanks separate tuples. -/
def tuples (text : List Char) : List (List Char) := (words text).map (substitute ',' [' '])

/-- The ring of an outer or inner boundary, if it has one with coordinates. -/
def ring? (boundary : Element) : Option (List (List Char)) := do
  let ring ← (kmlChildren boundary "LinearRing").head?
  let coordinates ← (kmlChildren ring "coordinates").head?
  return tuples (coordinates.text.getD "").toList

def writeRing (ring : List (List Char)) : String :=
  "(" ++ String.intercalate ", " (ring.map String.ofList) ++ ")"

/-- The rings of a polygon, the outer one first. Without an outer ring there is no polygon. -/
def rings? (polygon : Element) : Option (List (List (List Char))) := do
  let outer ← (kmlChildren polygon "outerBoundaryIs").head?.bind ring?
  return outer :: (kmlChildren polygon "innerBoundaryIs").filterMap ring?

def writePolygon (rings : List (List (List Char))) : String :=
  "POLYGON (" ++ String.intercalate ", " (rings.map writeRing) ++ ")"

def polygons (document : Document) : List String :=
  document.events.filterMap fun event =>
    match event with
    | .opened element =>
      if element.name = kmlName "Polygon" then (rings? element).map writePolygon else none
    | _ => none

end KeyholeMarkup.Geometry

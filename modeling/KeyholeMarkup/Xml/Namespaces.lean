/-! The namespaces that occur in KML documents. -/
namespace KeyholeMarkup.Xml

def kmlUri : String := "http://www.opengis.net/kml/2.2"
def atomUri : String := "http://www.w3.org/2005/Atom"
/-- Google's extensions of KML. -/
def gxUri : String := "http://www.google.com/kml/ext/2.2"
/-- Bound to the prefix `xml` in every document. -/
def xmlUri : String := "http://www.w3.org/XML/1998/namespace"
/-- Bound to the prefix `xmlns` in every document. -/
def xmlnsUri : String := "http://www.w3.org/2000/xmlns/"

/-- The prefix commonly used for a well-known namespace. -/
def conventionalPrefix? (uri : String) : Option String :=
  if uri = kmlUri then some "kml"
  else if uri = atomUri then some "atom"
  else if uri = gxUri then some "gx"
  else if uri = xmlUri then some "xml"
  else none

end KeyholeMarkup.Xml

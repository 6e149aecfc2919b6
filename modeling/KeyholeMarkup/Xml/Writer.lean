import KeyholeMarkup.Xml.Error
import KeyholeMarkup.Xml.Markup

/-! Writing of documents. Markup begins a line of its own, indented by its depth, except at the
start of the text and directly after character data. -/
namespace KeyholeMarkup.Xml

structure WriteOptions where
  /-- Spaces for each level; without, everything is written on one line. -/
  indent : Option Nat
  declaration : Bool
  /-- Elements whose text is written in CDATA sections. -/
  cdata : List Name
deriving DecidableEq, Repr

namespace WriteOptions

def standard : WriteOptions := ⟨some 2, true, []⟩

/-- The KML elements that usually hold other markup. -/
def kmlCdata : List String := ["description", "text", "linkDescription", "displayName"]

def withKmlCdata (options : WriteOptions) : WriteOptions :=
  { options with cdata := options.cdata ++ kmlCdata.map fun localName => ⟨some kmlUri, localName⟩ }

end WriteOptions

/-- The spaces before the next line, and whether the next markup begins one. -/
structure Layout where
  column : Nat
  breakNext : Bool
deriving DecidableEq, Repr

namespace Layout

def lead (layout : Layout) : List Char :=
  if layout.breakNext then '\n' :: List.replicate layout.column ' ' else []

def place (size : Nat) (layout : Layout) (markup : Markup) : Layout × List Char :=
  match markup with
  | .text _ | .cdata _ => ({ layout with breakNext := false }, markup.render)
  | .opening .. => (⟨layout.column + size, true⟩, layout.lead ++ markup.render)
  | .closing _ =>
    let layout := { layout with column := layout.column - size }
    (⟨layout.column, true⟩, layout.lead ++ markup.render)
  | _ => (⟨layout.column, true⟩, layout.lead ++ markup.render)

def placeAll (size : Nat) : Layout → List Markup → List Char
  | _, [] => []
  | layout, markup :: rest =>
    let (layout, text) := layout.place size markup
    text ++ placeAll size layout rest

end Layout

def writeMarkup (options : WriteOptions) (markup : List Markup) : List Char :=
  match options.indent with
  | some size =>
    let head := if options.declaration then [Markup.declaration] else []
    Layout.placeAll size ⟨0, false⟩ (head ++ markup) ++ ['\n']
  | none =>
    let head := if options.declaration then Markup.declaration.render ++ ['\n'] else []
    head ++ markup.flatMap Markup.render

def Document.write (document : Document) (options : WriteOptions) : String :=
  String.ofList (writeMarkup options (Markup.ofDocument options.cdata document))

/-- Writes to a store of limited size. Returns the bytes that fit, and an error if not all do. -/
def Document.writeWithin (document : Document) (options : WriteOptions) (limit : Nat) :
    List UInt8 × Option Error :=
  let bytes := (document.write options).toList.flatMap String.utf8EncodeChar
  (bytes.take limit, if bytes.length ≤ limit then none else some (.writeFault "limit reached"))

end KeyholeMarkup.Xml

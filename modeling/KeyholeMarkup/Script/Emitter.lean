import KeyholeMarkup.Script.Builders
import KeyholeMarkup.Script.Error
import KeyholeMarkup.Script.Literal
import KeyholeMarkup.Xml.Walk

/-! Scripts written event by event. An opened element is a call whose line is ended by what comes
next: a child goes on a line of its own, with a comma before the line break if the call has an
argument already, while the end of the element and its attributes join the line. Comments beside
the root are kept for statements after it. -/
namespace KeyholeMarkup.Script
open KeyholeMarkup.Xml

inductive Stage
  | beforeRoot
  | inTree
  | afterRoot
deriving DecidableEq, Repr

structure Emitter where
  builders : Builders
  /-- The text so far, last part first. -/
  written : List (List Char)
  stage : Stage
  /-- For each open call, innermost first, whether it has a tag literal or text. -/
  calls : List Bool
  /-- Whether the innermost call has been opened just now, with its line not yet ended. -/
  atOpening : Bool
  /-- Comments before the root, last one first, and after it. -/
  leading : List (List Char)
  trailing : List (List Char)

def indentAt (depth : Nat) : List Char := List.replicate (2 * depth) ' '

/-- An attribute as a keyword argument: by its name if that can be one, and otherwise in a
dictionary. -/
def keywordArgument (entry : Attribute) : List Char :=
  if entry.name.uri = none ∧ isIdentifier entry.name.localName then
    entry.name.localName.toList ++ '=' :: doubleQuoted entry.value.toList ++ [',']
  else
    ['*', '*', '{'] ++ literal entry.name.clark.toList ++ ": ".toList ++
      literal entry.value.toList ++ ['}', ',']

def commentCall (slot : Slot) : List Char := "etree.Comment(".toList ++ slot.code ++ [')']

/-- The start of a call: its indent, the builder, the tag and the text. A tag that is no identifier
is the first argument. -/
structure Opening where
  code : List Char
  /-- Whether there is a tag literal or a text literal. -/
  argument : Bool
deriving DecidableEq, Repr

def Opening.ofTag (builder : String) (tag : Tag) (depth : Nat) : Opening :=
  let indent := indentAt depth
  let slot := Slot.ofText (tag.text.getD "").toList indent
  if isIdentifier tag.name.localName then
    ⟨indent ++ builder.toList ++ '.' :: tag.name.localName.toList ++ '(' :: slot.code, slot.filled⟩
  else
    let comma := if !slot.filled then [] else if slot.code.head? = some '\n' then [','] else [',', ' ']
    ⟨indent ++ builder.toList ++ '(' :: literal tag.name.localName.toList ++ comma ++ slot.code, true⟩

/-- The imports, one of them for each builder, and the beginning of the assignment. -/
def preamble (builders : Builders) : List Char :=
  "from __future__ import unicode_literals\n".toList ++
    "from __future__ import print_function\n".toList ++ "from lxml import etree\n".toList ++
    (builders.entries.flatMap fun entry =>
      ("from pykml.factory import " ++ entry.factory ++ " as " ++ entry.identifier ++ "\n").toList) ++
    "\ndoc = ".toList

def epilogue : List Char :=
  "print(etree.tostring(etree.ElementTree(doc), \n".toList ++
    "                     encoding='utf-8', \n".toList ++
    "                     xml_declaration=True, \n".toList ++
    "                     pretty_print=True).decode('utf-8'))\n".toList

namespace Emitter

def start (builders : Builders) : Emitter :=
  ⟨builders, [preamble builders], .beforeRoot, [], false, [], []⟩

def depth (emitter : Emitter) : Nat := emitter.calls.length

def text (emitter : Emitter) : List Char := emitter.written.reverse.flatten

def write (emitter : Emitter) (part : List Char) : Emitter :=
  { emitter with written := part :: emitter.written }

/-- Writes the comma between the arguments on an opening line and the first child. -/
def separate (emitter : Emitter) : Emitter :=
  if emitter.atOpening && emitter.calls.head?.getD false then emitter.write [','] else emitter

def endLine (emitter : Emitter) : Emitter :=
  if emitter.atOpening then { emitter.write ['\n'] with atOpening := false } else emitter

/-- Opens the call of an element. Its builder is looked for when the comma before the element has
been written. -/
def enter (emitter : Emitter) (element : Element) : Emitter × Option Error :=
  let emitter := emitter.separate
  match emitter.builders.resolve element.name.uri with
  | none =>
    (emitter, some (.unknownNamespace (element.name.uri.getD "") element.name.localName
      element.tag.span))
  | some builder =>
    let opening := Opening.ofTag builder element.tag emitter.depth
    let emitter := emitter.endLine.write opening.code
    ({ emitter with calls := opening.argument :: emitter.calls, atOpening := true, stage := .inTree },
      none)

/-- Closes the innermost call with the attributes of the element. -/
def leave (emitter : Emitter) (element : Element) : Emitter :=
  match emitter.calls with
  | [] => emitter
  | argument :: calls =>
    let attributes := element.tag.attributes
    let comma := if emitter.atOpening && argument && !attributes.isEmpty then [','] else []
    let indent := if emitter.atOpening then [] else indentAt calls.length
    let arguments := attributes.flatMap fun entry =>
      indent ++ [' ', ' '] ++ keywordArgument entry ++ ['\n']
    let emitter := emitter.write (comma ++ arguments ++ indent ++ [')', ',', '\n'])
    { emitter with
      calls := calls
      atOpening := false
      stage := if calls.isEmpty then .afterRoot else emitter.stage }

def remark (emitter : Emitter) (comment : Comment) : Emitter :=
  let indent := indentAt emitter.depth
  let call := commentCall (Slot.ofText comment.text.toList indent)
  if emitter.calls.isEmpty then
    match emitter.stage with
    | .beforeRoot => { emitter with leading := call :: emitter.leading }
    | _ => { emitter with trailing := call :: emitter.trailing }
  else emitter.separate.endLine.write (indent ++ call ++ [',', '\n'])

/-- Takes in one event. After an error the emitter can go on with the next event. -/
def emit (emitter : Emitter) : Event → Emitter × Option Error
  | .opened element => emitter.enter element
  | .closed element => (emitter.leave element, none)
  | .comment comment => (emitter.remark comment, none)

/-- A text without the comma before its last line break. -/
def dropComma (text : List Char) : List Char :=
  match text.reverse with
  | '\n' :: ',' :: rest => ('\n' :: rest).reverse
  | _ => text

/-- The complete script. A comment after the root is placed directly behind it, so the last of them
comes first. -/
def finish (emitter : Emitter) : Except Error (List Char) :=
  match emitter.stage with
  | .beforeRoot => .error .noRootElement
  | _ =>
    .ok (dropComma emitter.endLine.text ++
      (emitter.leading.reverse.flatMap fun call => "doc.addprevious(".toList ++ call ++ [')', '\n']) ++
      (emitter.trailing.flatMap fun call => "doc.addnext(".toList ++ call ++ [')', '\n']) ++
      epilogue)

def run (emitter : Emitter) : List Event → Except Error Emitter
  | [] => .ok emitter
  | event :: events =>
    match emitter.emit event with
    | (_, some error) => .error error
    | (emitter, none) => emitter.run events

@[simp] theorem text_write (emitter : Emitter) (part : List Char) :
    (emitter.write part).text = emitter.text ++ part := by
  simp [text, write]

@[simp] theorem depth_write (emitter : Emitter) (part : List Char) :
    (emitter.write part).depth = emitter.depth := rfl

end Emitter

def ofEvents (builders : Builders) (events : List Event) : Except Error String := do
  let emitter ← (Emitter.start builders).run events
  return String.ofList (← emitter.finish)

def ofDocument (builders : Builders) (document : Document) : Except Error String :=
  ofEvents builders document.events

end KeyholeMarkup.Script

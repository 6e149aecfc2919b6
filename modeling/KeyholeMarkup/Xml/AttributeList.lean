import KeyholeMarkup.Xml.Token

/-! The attributes written in a tag: names with quoted values. Reading stops at the first fault;
the attributes before it are kept. Positions are byte offsets within the tag. -/
namespace KeyholeMarkup.Xml
open KeyholeMarkup.Text

structure WrittenAttribute where
  name : List Char
  value : List Char
  position : Nat
deriving DecidableEq, Repr

inductive AttributeFault
  | missingEquals (position : Nat)
  | missingValue (position : Nat)
  | unquotedValue (position : Nat)
  | openQuote (position : Nat) (quote : Char)
  | repeated (position previous : Nat)
deriving DecidableEq, Repr

def AttributeFault.message : AttributeFault → String
  | .missingEquals position =>
    "position " ++ toString position ++
      ": attribute key must be directly followed by `=` or space"
  | .missingValue position =>
    "position " ++ toString position ++ ": `=` must be followed by an attribute value"
  | .unquotedValue position =>
    "position " ++ toString position ++ ": attribute value must be enclosed in `\"` or `'`"
  | .openQuote position quote =>
    "position " ++ toString position ++ ": missing closing quote `" ++ String.singleton quote ++
      "` in attribute value"
  | .repeated position previous =>
    "position " ++ toString position ++ ": duplicated attribute, previous declaration at position " ++
      toString previous

namespace AttributeList

inductive Mode
  | gap
  | name
  | afterName
  | afterEquals
  | value (quote : Char)
deriving DecidableEq, Repr

/-- The state of reading. The name and value at hand are held last character first. -/
structure State where
  mode : Mode
  name : List Char
  position : Nat
  value : List Char
  offset : Nat
  finished : List WrittenAttribute
  fault : Option AttributeFault
deriving Repr

/-- The `=` after a name. A name may be written only once in a tag if `unique` holds. -/
def equals (unique : Bool) (state : State) : State :=
  let name := state.name.reverse
  match if unique then state.finished.find? (·.name == name) else none with
  | some previous => { state with fault := some (.repeated state.position previous.position) }
  | none => { state with mode := .afterEquals }

def advance (unique : Bool) (state : State) (c : Char) : State :=
  match state.mode with
  | .gap =>
    if isSpace c then state
    else { state with mode := .name, name := [c], position := state.offset, value := [] }
  | .name =>
    if c = '=' then equals unique state
    else if isSpace c then { state with mode := .afterName }
    else { state with name := c :: state.name }
  | .afterName =>
    if isSpace c then state
    else if c = '=' then equals unique state
    else { state with fault := some (.missingEquals state.offset) }
  | .afterEquals =>
    if isSpace c then state
    else if c = '"' || c = '\'' then { state with mode := .value c }
    else { state with fault := some (.unquotedValue state.offset) }
  | .value quote =>
    if c = quote then
      { state with
        mode := .gap
        finished :=
          ⟨state.name.reverse, state.value.reverse, state.position⟩ :: state.finished }
    else { state with value := c :: state.value }

def step (unique : Bool) (state : State) (c : Char) : State :=
  match state.fault with
  | some _ => state
  | none =>
    let state := advance unique state c
    { state with offset := state.offset + c.utf8Size }

def complete (state : State) : State :=
  match state.fault with
  | some _ => state
  | none =>
    match state.mode with
    | .gap => state
    | .name | .afterName => { state with fault := some (.missingEquals state.offset) }
    | .afterEquals => { state with fault := some (.missingValue state.offset) }
    | .value quote => { state with fault := some (.openQuote state.offset quote) }

end AttributeList

/-- The attributes of a tag in order, up to a fault. -/
structure AttributeList where
  attributes : List WrittenAttribute
  fault : Option AttributeFault
deriving DecidableEq, Repr

/-- Reads the part of a tag after its name, which starts at `offset` within the tag. -/
def AttributeList.read (unique : Bool) (offset : Nat) (text : List Char) : AttributeList :=
  let state := AttributeList.complete <|
    text.foldl (AttributeList.step unique) ⟨.gap, [], 0, [], offset, [], none⟩
  ⟨state.finished.reverse, state.fault⟩

/-- The name that a tag begins with. It may be empty. -/
def tagName (content : List Char) : List Char := content.takeWhile (!isSpace ·)

def tagAttributes (unique : Bool) (content : List Char) : AttributeList :=
  AttributeList.read unique (byteLength (tagName content)) (content.dropWhile (!isSpace ·))

end KeyholeMarkup.Xml

import KeyholeMarkup.Text.Bytes

/-! References to characters, `&lt;` and `&#60;`, and the other changes that text undergoes when it
is read from markup: line ends become line feeds, and blanks in attribute values become spaces. -/
namespace KeyholeMarkup.Xml
open KeyholeMarkup.Text

/-- The character written as it is or, if it could be taken for markup, by reference. -/
def escapeChar (c : Char) : List Char :=
  if c = '&' then "&amp;".toList
  else if c = '<' then "&lt;".toList
  else if c = '>' then "&gt;".toList
  else if c = '\'' then "&apos;".toList
  else if c = '"' then "&quot;".toList
  else [c]

def escape (text : List Char) : List Char := text.flatMap escapeChar

inductive ReferenceFault
  /-- No semicolon before the next reference or the end. The range reaches to the end. -/
  | unterminated (start stop : Nat)
  | unknownEntity (start stop : Nat) (name : List Char)
  | signedNumber
  | emptyNumber
  | invalidDigit
  | numberTooLarge
  | nullCharacter
  | notACharacter (code : Nat)
deriving DecidableEq, Repr

def ReferenceFault.message : ReferenceFault → String
  | .unterminated start stop =>
    "Error while escaping character at range " ++ toString start ++ ".." ++ toString stop ++
      ": Cannot find ';' after '&'"
  | .unknownEntity start stop name =>
    "at " ++ toString start ++ ".." ++ toString stop ++ ": unrecognized entity `" ++
      String.ofList name ++ "`"
  | .signedNumber => "invalid character reference: unexpected number sign"
  | .emptyNumber => "invalid character reference: cannot parse integer from empty string"
  | .invalidDigit => "invalid character reference: invalid digit found in string"
  | .numberTooLarge => "invalid character reference: number too large to fit in target type"
  | .nullCharacter => "invalid character reference: 0x0 character is not permitted in XML"
  | .notACharacter code =>
    "invalid character reference: `" ++ toString code ++ "` is not a valid codepoint"

def digitValue? (radix : Nat) (c : Char) : Option Nat :=
  let value :=
    if '0' ≤ c ∧ c ≤ '9' then some (c.toNat - '0'.toNat)
    else if 'a' ≤ c ∧ c ≤ 'f' then some (c.toNat - 'a'.toNat + 10)
    else if 'A' ≤ c ∧ c ≤ 'F' then some (c.toNat - 'A'.toNat + 10)
    else none
  value.filter (· < radix)

/-- Reads a number of 32 bits, digit by digit. -/
def readNumber (radix : Nat) (digits : List Char) : Except ReferenceFault Nat :=
  match digits with
  | [] => .error .emptyNumber
  | first :: _ =>
    if first = '+' ∨ first = '-' then .error .signedNumber
    else digits.foldlM (fun number c =>
      match digitValue? radix c with
      | none => .error .invalidDigit
      | some digit =>
        if number * radix + digit < UInt32.size then .ok (number * radix + digit)
        else .error .numberTooLarge) 0

def characterOfCode (code : Nat) : Except ReferenceFault Char :=
  if code = 0 then .error .nullCharacter
  else if code.isValidChar then .ok (Char.ofNat code)
  else .error (.notACharacter code)

/-- The character that a reference stands for. `start` and `stop` are where its name stands. -/
def resolveReference (start stop : Nat) (name : List Char) : Except ReferenceFault Char :=
  match name with
  | '#' :: 'x' :: digits => do characterOfCode (← readNumber 16 digits)
  | '#' :: digits => do characterOfCode (← readNumber 10 digits)
  | _ =>
    if name = "lt".toList then .ok '<'
    else if name = "gt".toList then .ok '>'
    else if name = "amp".toList then .ok '&'
    else if name = "apos".toList then .ok '\''
    else if name = "quot".toList then .ok '"'
    else .error (.unknownEntity start stop name)

/-- The state of expansion: the offset of the `&` of a reference at hand and its name so far, and
the text expanded so far, both last character first. -/
structure Expanding where
  offset : Nat
  reference : Option (Nat × List Char)
  expanded : List Char

def Expanding.step (total : Nat) (state : Expanding) (c : Char) :
    Except ReferenceFault Expanding :=
  let next := state.offset + c.utf8Size
  match state.reference with
  | none =>
    if c = '&' then .ok ⟨next, some (state.offset, []), state.expanded⟩
    else .ok ⟨next, none, c :: state.expanded⟩
  | some (start, name) =>
    if c = ';' then do
      let character ← resolveReference (start + 1) state.offset name.reverse
      return ⟨next, none, character :: state.expanded⟩
    else if c = '&' then .error (.unterminated start total)
    else .ok ⟨next, some (start, c :: name), state.expanded⟩

/-- Replaces every reference by its character. -/
def expandReferences (text : List Char) : Except ReferenceFault (List Char) := do
  let total := byteLength text
  let state ← text.foldlM (Expanding.step total) ⟨0, none, []⟩
  match state.reference with
  | some (start, _) => .error (.unterminated start total)
  | none => return state.expanded.reverse

/-- A carriage return, with the line feed after it if there is one, becomes a line feed. -/
def normalizeLineEnds : List Char → List Char
  | '\r' :: '\n' :: rest => '\n' :: normalizeLineEnds rest
  | '\r' :: rest => '\n' :: normalizeLineEnds rest
  | c :: rest => c :: normalizeLineEnds rest
  | [] => []

/-- In attribute values line ends and tabs become spaces. -/
def normalizeValue (raw : List Char) : List Char :=
  (normalizeLineEnds raw).map fun c => if c = '\n' ∨ c = '\t' then ' ' else c

end KeyholeMarkup.Xml

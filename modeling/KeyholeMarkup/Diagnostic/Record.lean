import KeyholeMarkup.Diagnostic.Message
import KeyholeMarkup.Json

/-! The two JSON forms of a message. The report is written for readers: absent and empty parts are
left out and kinds are in lower case. The record is for storage and is read back; it names the
kinds as the types do. Fields are written in alphabetical order. -/
namespace KeyholeMarkup
open KeyholeMarkup.Diagnostic KeyholeMarkup.Source

namespace Diagnostic

def optionalField (name : String) : Option Json → List (String × Json)
  | some value => [(name, value)]
  | none => []

@[simp] theorem field?_optionalField (other name : String) (value : Option Json) :
    Json.field? (optionalField other value) name = if other = name then value else none := by
  cases value <;> simp [optionalField]

/-- A list field, left out when the list is empty. -/
def listField (name : String) : List Json → List (String × Json)
  | [] => []
  | items => [(name, .array items)]

end Diagnostic

namespace Source.Span

def toJson (span : Span) : Json :=
  .object [("end", .nat span.stop), ("file_id", .nat span.file), ("start", .nat span.start)]

end Source.Span

namespace Diagnostic

def Severity.label : Severity → String
  | .error => "Error"
  | .warning => "Warning"
  | .info => "Info"
  | .note => "Note"

def Severity.keyword : Severity → String
  | .error => "error"
  | .warning => "warning"
  | .info => "info"
  | .note => "note"

def Bullet.label : Bullet → String
  | .error => "Error"
  | .info => "Info"
  | .note => "Note"

def Bullet.keyword : Bullet → String
  | .error => "error"
  | .info => "info"
  | .note => "note"

def Wording.report : Wording → Json
  | .plain text => .object [("content", .string text), ("type", .string "plain")]
  | .markdown text => .object [("content", .string text), ("type", .string "markdown")]

def Detail.report (detail : Detail) : Json :=
  .object <| [("content", detail.wording.report), ("kind", .string detail.bullet.keyword)] ++
    optionalField "location" (detail.location.map Span.toJson)

def Message.report (message : Message) : Json :=
  .object <|
    optionalField "code" (message.code.map .string) ++
    listField "details" (message.details.map Detail.report) ++
    listField "hints" (message.hints.map Wording.report) ++
    [("kind", .string message.severity.keyword)] ++
    optionalField "location" (message.location.map Span.toJson) ++
    optionalField "problem" (message.problem.map Wording.report) ++
    [("title", .string message.title)]

def Wording.record : Wording → Json
  | .plain text => .object [("Plain", .string text)]
  | .markdown text => .object [("Markdown", .string text)]

def Detail.record (detail : Detail) : Json :=
  .object <| [("content", detail.wording.record), ("kind", .string detail.bullet.label)] ++
    optionalField "location" (detail.location.map Span.toJson)

def Message.record (message : Message) : Json :=
  .object <|
    optionalField "code" (message.code.map .string) ++
    [("details", .array (message.details.map Detail.record)),
      ("hints", .array (message.hints.map Wording.record)),
      ("kind", .string message.severity.label)] ++
    optionalField "location" (message.location.map Span.toJson) ++
    [("problem", (message.problem.map Wording.record).getD .null),
      ("title", .string message.title)]

/-- The values of the named fields. A record may also be written as the array of its values in
this order; then none may be absent. -/
def fieldValues? (names : List String) : Json → Option (List (Option Json))
  | .object fields => some (names.map (Json.field? fields))
  | .array items => if items.length = names.length then some (items.map some) else none
  | _ => none

def readString? : Json → Option String
  | .string text => some text
  | _ => none

/-- A natural number that fits a machine word of 64 bits. -/
def readNat? : Json → Option Nat
  | .number mantissa 0 =>
    if 0 ≤ mantissa ∧ mantissa.toNat < UInt64.size then some mantissa.toNat else none
  | _ => none

def readList? {α : Type} (item? : Json → Option α) : Json → Option (List α)
  | .array items => items.mapM item?
  | _ => none

def readOptional? {α : Type} (value? : Json → Option α) : Option Json → Option (Option α)
  | none => some none
  | some .null => some none
  | some value => (value? value).map some

/-- The name of a kind without data, alone or as the only field of an object with value null. -/
def readKind? {α : Type} (named? : String → Option α) : Json → Option α
  | .string name => named? name
  | .object [(name, .null)] => named? name
  | _ => none

def Severity.ofLabel? : String → Option Severity
  | "Error" => some .error
  | "Warning" => some .warning
  | "Info" => some .info
  | "Note" => some .note
  | _ => none

def Bullet.ofLabel? : String → Option Bullet
  | "Error" => some .error
  | "Info" => some .info
  | "Note" => some .note
  | _ => none

def Wording.ofRecord? : Json → Option Wording
  | .object [("Plain", .string text)] => some (.plain text)
  | .object [("Markdown", .string text)] => some (.markdown text)
  | _ => none

def readSpan? (value : Json) : Option Span := do
  match ← fieldValues? ["file_id", "start", "end"] value with
  | [some file, some start, some stop] =>
    return ⟨← readNat? file, ← readNat? start, ← readNat? stop⟩
  | _ => none

def Detail.ofRecord? (value : Json) : Option Detail := do
  match ← fieldValues? ["kind", "content", "location"] value with
  | [some kind, some content, location] =>
    return ⟨← readKind? Bullet.ofLabel? kind, ← Wording.ofRecord? content,
      ← readOptional? readSpan? location⟩
  | _ => none

/-- Reads a record. Fields of other names are skipped. -/
def Message.ofRecord? (value : Json) : Option Message := do
  match ← fieldValues? ["code", "title", "kind", "problem", "details", "hints", "location"]
      value with
  | [code, some title, some kind, problem, some details, some hints, location] =>
    return ⟨← readOptional? readString? code, ← readString? title,
      ← readKind? Severity.ofLabel? kind, ← readOptional? Wording.ofRecord? problem,
      ← readList? Detail.ofRecord? details, ← readList? Wording.ofRecord? hints,
      ← readOptional? readSpan? location⟩
  | _ => none

end Diagnostic
end KeyholeMarkup

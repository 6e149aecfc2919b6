import KeyholeMarkup.Source.Span

/-! Diagnostic messages: a title, what went wrong, bulleted details and hints, each part optional
but the title. -/
namespace KeyholeMarkup.Diagnostic
open KeyholeMarkup.Source

inductive Severity
  | error
  | warning
  | info
  | note
deriving DecidableEq, Repr

inductive Bullet
  | error
  | info
  | note
deriving DecidableEq, Repr

/-- Plain text, or text in which backticks mark names and values. -/
inductive Wording
  | plain (text : String)
  | markdown (text : String)
deriving DecidableEq, Repr

def Wording.text : Wording → String
  | .plain text => text
  | .markdown text => text

instance : Coe String Wording := ⟨.markdown⟩

structure Detail where
  bullet : Bullet
  wording : Wording
  location : Option Span
deriving DecidableEq, Repr

structure Message where
  code : Option String
  title : String
  severity : Severity
  problem : Option Wording
  details : List Detail
  hints : List Wording
  location : Option Span
deriving DecidableEq, Repr

namespace Message

def titled (severity : Severity) (title : String) : Message :=
  ⟨none, title, severity, none, [], [], none⟩

def error (title : String) : Message := titled .error title
def warning (title : String) : Message := titled .warning title
def info (title : String) : Message := titled .info title

def withCode (message : Message) (code : String) : Message := { message with code := some code }

def withProblem (message : Message) (problem : Wording) : Message :=
  { message with problem := some problem }

def withDetail (message : Message) (bullet : Bullet) (wording : Wording)
    (location : Option Span) : Message :=
  { message with details := message.details ++ [⟨bullet, wording, location⟩] }

def withHint (message : Message) (hint : Wording) : Message :=
  { message with hints := message.hints ++ [hint] }

def withLocation (message : Message) (location : Span) : Message :=
  { message with location := some location }

/-- An absent location leaves the message as it is. -/
def withLocation? (message : Message) : Option Span → Message
  | some location => message.withLocation location
  | none => message

/-- An error without a code of its own, tagged with where in the program it was raised. -/
def generic (title file : String) (line : Nat) : Message :=
  (error (title ++ " (" ++ file ++ ":" ++ toString line ++ ")")).withCode "K-0-99"

end Message
end KeyholeMarkup.Diagnostic

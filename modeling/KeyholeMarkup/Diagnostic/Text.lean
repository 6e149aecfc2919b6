import KeyholeMarkup.Diagnostic.Record
import KeyholeMarkup.Diagnostic.Snippet

/-! Messages as text. Without a source to show, the parts follow each other line by line; with one,
the title, the problem and the located details are drawn into a snippet of the source. -/
namespace KeyholeMarkup.Diagnostic
open KeyholeMarkup.Source KeyholeMarkup.Text

def Bullet.sign : Bullet → String
  | .error => "✖"
  | .info => "ℹ"
  | .note => "•"

def Detail.line (detail : Detail) : String := detail.bullet.sign ++ " " ++ detail.wording.text

namespace Message

def heading (message : Message) : String :=
  match message.code with
  | some code => message.severity.label ++ " [" ++ code ++ "]: " ++ message.title
  | none => message.severity.label ++ ": " ++ message.title

def hintLines (message : Message) : List String := message.hints.map ("? " ++ ·.text)

/-- Rows and columns are written from one on. Without a file the offset stands for them. -/
def locationLine (files : Files) (location : Span) : String :=
  match files.locate? location with
  | some place => "at " ++ toString (place.row + 1) ++ ":" ++ toString (place.column + 1)
  | none => "at byte " ++ toString location.start

def plainLines (message : Message) (files : Files) : List String :=
  [message.heading] ++ (message.problem.map (·.text)).toList ++ message.details.map Detail.line ++
    (message.location.map (locationLine files)).toList ++ message.hintLines

/-- The message by itself, when there are no files to show it in. -/
def text (message : Message) : String := String.intercalate "\n" (message.plainLines [])

/-- Where the snippet is drawn: at the location of the message, else at that of its first located
detail. -/
def anchor? (message : Message) : Option Span :=
  message.location.or (message.details.findSome? (·.location))

/-- An offset in characters. An offset within a character is taken as it is. -/
def charOffset (content : List Char) (offset : Nat) : Nat :=
  (charsBefore? (min offset (byteLength content)) content).getD offset

def label (content : List Char) (span : Span) (message : String) : Snippet.Label :=
  let start := charOffset content span.start
  ⟨start, max (charOffset content span.stop) start, message⟩

/-- Info and notes are both drawn as advice. -/
def snippetKind : Severity → String
  | .error => "Error"
  | .warning => "Warning"
  | .info | .note => "Advice"

def snippetHeader (message : Message) : String :=
  match message.code with
  | some code => snippetKind message.severity ++ ": [" ++ code ++ "] " ++ message.title
  | none => snippetKind message.severity ++ ": " ++ message.title

/-- The labels of a snippet: the problem, or the title without one, at the anchor, and the details
located in the same file. -/
def labels (message : Message) (anchor : Span) (content : List Char) : List Snippet.Label :=
  label content anchor ((message.problem.map (·.text)).getD message.title) ::
    message.details.filterMap fun detail =>
      detail.location.bind fun location =>
        if location.file = anchor.file then some (label content location detail.wording.text)
        else none

def snippet (message : Message) (anchor : Span) (file : File) : String :=
  let content := file.content.toList
  Snippet.render message.snippetHeader file.path content (charOffset content anchor.start)
    (message.labels anchor content)

def render (message : Message) (files : Files) : String :=
  let drawn := message.anchor?.bind fun anchor =>
    files[anchor.file]?.map fun file => message.snippet anchor file
  match drawn with
  | none => String.intercalate "\n" (message.plainLines files)
  | some drawn =>
    String.intercalate "\n" <|
      [String.ofList (trimRight drawn.toList)] ++
      (message.details.filter (·.location.isNone)).map Detail.line ++ message.hintLines

end Message
end KeyholeMarkup.Diagnostic

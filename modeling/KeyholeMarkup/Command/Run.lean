import KeyholeMarkup.Command.Arguments
import KeyholeMarkup.Diagnostic.Text
import KeyholeMarkup.Geometry.Polygon
import KeyholeMarkup.Json
import KeyholeMarkup.Schema.Load
import KeyholeMarkup.Schema.Validation
import KeyholeMarkup.Script.Emitter
import KeyholeMarkup.Xml.Count
import KeyholeMarkup.Xml.Session
import KeyholeMarkup.Xml.Writer

/-! What the program does, as a function from what it finds to what it leaves. Results go to standard
output or to a file, and are complete or not there at all; what is reported goes to standard error,
or to standard output when a report as JSON is asked for. -/
namespace KeyholeMarkup.Command
open KeyholeMarkup.Diagnostic KeyholeMarkup.Source KeyholeMarkup.Storage KeyholeMarkup.Xml

structure Surroundings where
  tree : Tree
  stdin : ByteArray
  /-- The list of folders to search that is set for all runs. -/
  folders : Option String

structure Outcome where
  exit : Nat
  stdout : String
  stderr : String
  /-- A file that is written. -/
  output : Option (Path × String)
deriving DecidableEq, Repr, Inhabited

namespace Outcome

def success (stdout : String) : Outcome := ⟨0, stdout, "", none⟩

def failure (stderr : String) : Outcome := ⟨1, "", stderr, none⟩

def after (outcome : Outcome) (stdout stderr : String) : Outcome :=
  { outcome with stdout := stdout ++ outcome.stdout, stderr := stderr ++ outcome.stderr }

end Outcome

/-- A failure to read or to write, which ends the program. -/
inductive Failure
  | webAddress (source : String)
  | unreadableInput (source : String) (fault : Fault)
  | unreadableStdin (fault : Fault)
  | unwritable (path : Path) (fault : Fault)
deriving DecidableEq, Repr

def withCause (message : String) (fault : Fault) : String :=
  message ++ "\n\nCaused by:\n    " ++ fault.message

def Failure.message : Failure → String
  | .webAddress source =>
    "`" ++ source ++ "` is a URL; download it first and pass the local file (or '-' for stdin)"
  | .unreadableInput source fault => withCause ("Failed to read input file: " ++ source) fault
  | .unreadableStdin fault => withCause "Failed to read stdin" fault
  | .unwritable path fault => withCause ("Failed to write output file: " ++ path.text) fault

def Failure.outcome (failure : Failure) : Outcome := .failure ("Error: " ++ failure.message ++ "\n")

def readInput (surroundings : Surroundings) (input : String) : Except Failure File :=
  if (Schema.afterScheme? input.toList).isSome then .error (.webAddress input)
  else if input = "-" then
    match decode surroundings.stdin with
    | .ok content => .ok ⟨"<stdin>", content⟩
    | .error fault => .error (.unreadableStdin fault)
  else
    match surroundings.tree.read ⟨input⟩ with
    | .ok content => .ok ⟨input, content⟩
    | .error fault => .error (.unreadableInput input fault)

def reportText (messages : List Message) (files : Files) : String :=
  String.join (messages.map fun message => message.render files ++ "\n")

def validityLine (valid : Bool) (messages : List Message) : String :=
  (Json.object [("diagnostics", .array (messages.map Message.report)), ("valid", .bool valid)]).render
    ++ "\n"

def rejected (format : Format) (messages : List Message) (files : Files) : Outcome :=
  match format with
  | .text => .failure (reportText messages files)
  | .json => { Outcome.failure "" with stdout := validityLine false messages }

/-- Goes on with the document in a file, or reports what is wrong with it. Warnings are reported in
text at any rate. -/
def withDocument (file : File) (format : Format) (next : Document → Outcome) : Outcome :=
  let (result, session) := (Session.forFile 0).parse file.content
  match result with
  | .ok document => (next document).after "" (reportText session.diagnostics [file])
  | .error messages => rejected format messages [file]

def deliver (surroundings : Surroundings) (output : Option Path) (text : String) : Outcome :=
  match output with
  | none => .success text
  | some path =>
    match surroundings.tree.target path with
    | .ok _ => { Outcome.success "" with output := some (path, text) }
    | .error fault => (Failure.unwritable path fault).outcome

def generate (surroundings : Surroundings) (file : File) (output : Option Path)
    (document : Document) : Outcome :=
  match Script.ofDocument .standard document with
  | .ok text => deliver surroundings output text
  | .error error => rejected .text [error.diagnostic] [file]

def issuesUnder (surroundings : Surroundings) (folders : List Path) (source : String)
    (document : Document) : Except Schema.LoadError (List Schema.Issue) := do
  let (_, components) ← Schema.load surroundings.tree folders source
  return components.issues document

def defaultSchema : String := "ogckml22.xsd"

/-- Output of the progress of a validation, which a report as JSON leaves out. -/
def progress (format : Format) (line : String) (outcome : Outcome) : Outcome :=
  match format with
  | .text => outcome.after (line ++ "\n") ""
  | .json => outcome

def validate (surroundings : Surroundings) (folders : List Path) (file : File)
    (schema : Option String) (format : Format) : Outcome :=
  let outcome := withDocument file format fun document =>
    match issuesUnder surroundings folders (schema.getD defaultSchema) document with
    | .error error => rejected format [error.diagnostic] []
    | .ok issues =>
      progress format "Validating document..." <|
        match issues, format with
        | [], .text => .success "Congratulations! The file is valid.\n"
        | [], .json => .success (validityLine true [])
        | issues, format =>
          progress format "Uh-oh! The KML file is invalid."
            (rejected format (issues.map (·.diagnostic)) [file])
  match schema with
  | some _ => outcome
  | none => progress format ("Validating against the default schema: " ++ defaultSchema) outcome

def countText (counts : ElementCounts) : String :=
  String.join (counts.map fun (uri, names) =>
    uri.getD "(no namespace)" ++ "\n" ++
      String.join (names.map fun (name, count) => "  " ++ name ++ ": " ++ toString count ++ "\n"))

def countJson (counts : ElementCounts) : Json :=
  .ofMap (counts.map fun (uri, names) =>
    (uri.getD "", .ofMap (names.map fun (name, count) => (name, Json.nat count))))

def count (counts : ElementCounts) : Format → Outcome
  | .text => .success (countText counts)
  | .json => .success ((countJson counts).render ++ "\n")

def listPolygons (polygons : List String) : Format → Outcome
  | .text => .success (String.join (polygons.map (· ++ "\n")))
  | .json => .success ((Json.array (polygons.map .string)).render ++ "\n")

def writeOptions (cdata compact : Bool) : WriteOptions :=
  let options := if compact then { WriteOptions.standard with indent := none } else .standard
  if cdata then options.withKmlCdata else options

def act (surroundings : Surroundings) (folders : List Path) (file : File) : Action → Outcome
  | .script output schema =>
    withDocument file .text fun document =>
      let script := generate surroundings file output document
      match schema with
      | none => script
      | some source =>
        match issuesUnder surroundings folders source document with
        | .error error => rejected .text [error.diagnostic] []
        | .ok [] => script
        | .ok issues => rejected .text (issues.map (·.diagnostic)) [file]
  | .validate schema format => validate surroundings folders file schema format
  | .count format => withDocument file format fun document => count document.counts format
  | .xml output cdata compact =>
    withDocument file .text fun document =>
      deliver surroundings output (document.write (writeOptions cdata compact))
  | .wkt format =>
    withDocument file format fun document => listPolygons (Geometry.polygons document) format

def Action.schema? : Action → Option String
  | .script _ schema => schema
  | .validate schema _ => some (schema.getD defaultSchema)
  | .count _ | .xml .. | .wkt _ => none

def Action.output? : Action → Option Path
  | .script output _ | .xml output _ _ => output
  | .validate .. | .count _ | .wkt _ => none

/-- The folders to search: those of the invocation, or else those set for all runs. -/
def searchFolders (surroundings : Surroundings) (invocation : Invocation) :
    Except UsageError (List Path) :=
  match invocation.folders, surroundings.folders with
  | some folders, _ => .ok folders
  | none, some text => pathList text
  | none, none => .ok []

def version : String := "kml2pykml 0.1.0"

def run (surroundings : Surroundings) (arguments : List String) : Outcome :=
  let answer : Except UsageError Outcome := do
    match ← parse arguments with
    | .version => return .success (version ++ "\n")
    | .run invocation =>
      let folders ← searchFolders surroundings invocation
      match readInput surroundings invocation.input with
      | .error failure => return failure.outcome
      | .ok file => return act surroundings folders file invocation.action
  match answer with
  | .ok outcome => outcome
  | .error error => ⟨2, "", "error: " ++ error.message ++ "\n", none⟩

end KeyholeMarkup.Command

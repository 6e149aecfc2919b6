import KeyholeMarkup.Command.Run
import KeyholeMarkup.Proofs.JsonReading
import KeyholeMarkup.Proofs.Schema.Loading
import KeyholeMarkup.Proofs.Storage.Written

/-! What a run leaves behind. Each stage either hands on to the next one or ends the run, so a result
is there as a whole or not at all, and the exit status tells which. -/
namespace KeyholeMarkup.Command
open KeyholeMarkup.Diagnostic KeyholeMarkup.Source KeyholeMarkup.Storage KeyholeMarkup.Xml

/-- The files after a run. -/
def Outcome.leaves (outcome : Outcome) (tree : Tree) : Tree :=
  match outcome.output with
  | none => tree
  | some (path, text) => (tree.write path text).toOption.getD tree

/-- An input that can be read, and the text there: standard input for a dash, and otherwise a file,
unless it is a web address. -/
inductive Readable (surroundings : Surroundings) : String → String → Prop
  | stdin {content} : surroundings.stdin = content.toUTF8 → Readable surroundings "-" content
  | file {input content} : input ≠ "-" → ¬ "http://".toList <+: input.toList →
    ¬ "https://".toList <+: input.toList → surroundings.tree.HoldsFile ⟨input⟩ content.toUTF8 →
    Readable surroundings input content

/-- The input can be read, and it is the text of a document. -/
def Reads (surroundings : Surroundings) (input : String) (document : Document) : Prop :=
  ∃ content, Readable surroundings input content ∧ Xml.parse 0 content = .ok document

/-- The schema can be loaded, and it has no issue with the document. -/
def Conforms (surroundings : Surroundings) (folders : List Path) (source : String)
    (document : Document) : Prop :=
  ∃ path components, Schema.load surroundings.tree folders source = .ok (path, components) ∧
    components.issues document = []

/-- The texts that are made of documents: scripts, of documents that conform to the schema if there
is one, and documents written anew. -/
inductive Makes (surroundings : Surroundings) (folders : List Path) : Action → Document → String → Prop
  | script {output schema document text} :
    (∀ source, schema = some source → Conforms surroundings folders source document) →
    Script.ofDocument .standard document = .ok text →
    Makes surroundings folders (.script output schema) document text
  | xml {output cdata compact document} : Makes surroundings folders (.xml output cdata compact)
      document (document.write (writeOptions cdata compact))

/-- The texts that an invocation is to produce. -/
def Produces (surroundings : Surroundings) (folders : List Path) (invocation : Invocation)
    (text : String) : Prop :=
  ∃ document, Reads surroundings invocation.input document ∧
    Makes surroundings folders invocation.action document text

/-- A text is on standard output, or in the file that is asked for and in no other. -/
def Delivers (tree : Tree) (output : Option Path) (text : String) (outcome : Outcome) : Prop :=
  match output with
  | none => outcome.stdout = text ∧ outcome.output = none
  | some path => outcome.stdout = "" ∧ outcome.output = some (path, text) ∧
      (outcome.leaves tree).read path = .ok text ∧
      ∀ place, tree.target path ≠ .ok place →
        (outcome.leaves tree).entryAt place = tree.entryAt place

/-- Nothing is on standard output, and no file is written. -/
structure Failed (tree : Tree) (outcome : Outcome) : Prop where
  exit : outcome.exit = 1
  stdout : outcome.stdout = ""
  output : outcome.output = none
  files : outcome.leaves tree = tree

/-- The outcome of an action that is to produce a text. -/
structure AllOrNothing (tree : Tree) (output : Option Path) (produced : String → Prop)
    (outcome : Outcome) : Prop where
  exit : outcome.exit = 0 ↔ ∃ text, produced text
  result : ∀ text, produced text → Delivers tree output text outcome
  otherwise : (∀ text, ¬ produced text) → Failed tree outcome

/-- One line on standard output, with a JSON object that tells whether the exit status is zero and
lists diagnostics exactly if it is not. -/
def ReportsLine (outcome : Outcome) : Prop :=
  ∃ line fields diagnostics, outcome.stdout.toList = line ++ ['\n'] ∧ '\n' ∉ line ∧
    Json.read? line = some (.object fields) ∧
    Json.field? fields "valid" = some (.bool (outcome.exit == 0)) ∧
    Json.field? fields "diagnostics" = some (.array diagnostics) ∧
    (diagnostics = [] ↔ outcome.exit = 0)

/-- The outcome of a validation, and the line about it if it is to be reported as JSON. -/
structure Verdict (reported valid : Prop) (outcome : Outcome) : Prop where
  exit : outcome.exit = 0 ↔ valid
  failure : outcome.exit ≠ 0 → outcome.exit = 1
  output : outcome.output = none
  report : reported → ReportsLine outcome

section Stages

variable {tree : Tree} {output : Option Path} {produced : String → Prop} {outcome : Outcome}
  {text stderr : String}

theorem failed_failure (stderr : String) : Failed tree (.failure stderr) := ⟨rfl, rfl, rfl, rfl⟩

theorem Outcome.stdout_after (outcome : Outcome) (stderr : String) :
    (outcome.after "" stderr).stdout = outcome.stdout := by
  simp [Outcome.after]

theorem AllOrNothing.after (settled : AllOrNothing tree output produced outcome) (stderr : String) :
    AllOrNothing tree output produced (outcome.after "" stderr) := by
  refine ⟨settled.exit, fun text made => ?_, fun nothing => ?_⟩
  · have delivers := settled.result text made
    unfold Delivers at delivers ⊢
    rw [Outcome.stdout_after]
    exact delivers
  · have failed := settled.otherwise nothing
    exact ⟨failed.exit, by rw [Outcome.stdout_after, failed.stdout], failed.output, failed.files⟩

theorem AllOrNothing.congr {produced' : String → Prop}
    (settled : AllOrNothing tree output produced outcome)
    (same : ∀ text, produced text ↔ produced' text) : AllOrNothing tree output produced' outcome := by
  obtain rfl : produced = produced' := funext fun text => propext (same text)
  exact settled

theorem allOrNothing_of_failed (nothing : ∀ text, ¬ produced text) (failed : Failed tree outcome) :
    AllOrNothing tree output produced outcome := by
  refine ⟨⟨fun zero => ?_, fun ⟨text, made⟩ => absurd made (nothing text)⟩,
    fun text made => absurd made (nothing text), fun _ => failed⟩
  rw [failed.exit] at zero
  cases zero

theorem withDocument_ok {file : File} {document : Document} (format : Format)
    (next : Document → Outcome) (parsed : Xml.parse 0 file.content = .ok document) :
    ∃ warnings, withDocument file format next =
      (next document).after "" (reportText warnings [file]) := by
  unfold Xml.parse at parsed
  refine ⟨(Xml.read 0 file.content).warnings, ?_⟩
  simp [withDocument, Session.forFile, Session.parse, parsed]

theorem withDocument_error {file : File} {error : Xml.Error} (format : Format)
    (next : Document → Outcome) (parsed : Xml.parse 0 file.content = .error error) :
    withDocument file format next = rejected format [error.diagnostic] [file] := by
  unfold Xml.parse at parsed
  simp [withDocument, Session.forFile, Session.parse, parsed]

theorem conforms_iff {surroundings : Surroundings} {folders : List Path} {source : String}
    {document : Document} : Conforms surroundings folders source document ↔
      issuesUnder surroundings folders source document = .ok [] := by
  unfold Conforms issuesUnder
  cases loaded : Schema.load surroundings.tree folders source with
  | error error => simp [bind, Except.bind]
  | ok schema =>
    obtain ⟨path, components⟩ := schema
    simp only [bind, Except.bind, pure, Except.pure, Except.ok.injEq, Prod.mk.injEq]
    constructor
    · rintro ⟨_, _, ⟨rfl, rfl⟩, empty⟩
      exact empty
    · exact fun empty => ⟨path, components, ⟨rfl, rfl⟩, empty⟩

theorem delivers_deliver {surroundings : Surroundings} (text : String)
    (writable : ∀ path, output = some path → ∃ place, surroundings.tree.target path = .ok place) :
    (deliver surroundings output text).exit = 0 ∧
      Delivers surroundings.tree output text (deliver surroundings output text) := by
  cases output with
  | none => exact ⟨rfl, rfl, rfl⟩
  | some path =>
    obtain ⟨place, target⟩ := writable path rfl
    have written : surroundings.tree.write path text =
        .ok (surroundings.tree.put place (.file text.toUTF8)) := by
      simp [Tree.write, target, bind, Except.bind, pure, Except.pure]
    have delivered : deliver surroundings (some path) text = ⟨0, "", "", some (path, text)⟩ := by
      rw [deliver, target]
      rfl
    have leaves : (deliver surroundings (some path) text).leaves surroundings.tree =
        surroundings.tree.put place (.file text.toUTF8) := by
      simp [delivered, Outcome.leaves, written, Except.toOption]
    refine ⟨by rw [delivered], by rw [delivered], by rw [delivered], ?_, ?_⟩
    · rw [leaves]
      exact Tree.read_write written
    · intro other apart
      rw [leaves]
      exact Tree.entryAt_write written apart

/-- An action that makes exactly one text of a document delivers it. -/
theorem allOrNothing_deliver {surroundings : Surroundings} {text : String}
    (writable : ∀ path, output = some path → ∃ place, surroundings.tree.target path = .ok place)
    (made : ∀ other, produced other ↔ other = text) :
    AllOrNothing surroundings.tree output produced (deliver surroundings output text) := by
  obtain ⟨exit, delivers⟩ := delivers_deliver text writable
  refine ⟨⟨fun _ => ⟨text, (made text).mpr rfl⟩, fun _ => exit⟩, ?_, ?_⟩
  · intro other found
    rw [(made other).mp found]
    exact delivers
  · exact fun nothing => absurd ((made text).mpr rfl) (nothing text)

end Stages

section Actions

variable {surroundings : Surroundings} {folders : List Path} {file : File} {document : Document}

theorem failed_rejected (messages : List Message) (files : Files) :
    Failed surroundings.tree (rejected .text messages files) := failed_failure _

theorem makes_script_iff {output : Option Path} {schema : Option String} {text : String} :
    Makes surroundings folders (.script output schema) document text ↔
      (∀ source, schema = some source → Conforms surroundings folders source document) ∧
        Script.ofDocument .standard document = .ok text :=
  ⟨fun | .script conforms written => ⟨conforms, written⟩, fun ⟨conforms, written⟩ => .script conforms written⟩

theorem makes_xml_iff {output : Option Path} {cdata compact : Bool} {text : String} :
    Makes surroundings folders (.xml output cdata compact) document text ↔
      text = document.write (writeOptions cdata compact) :=
  ⟨fun | .xml => rfl, fun same => same ▸ .xml⟩

theorem allOrNothing_generate {output : Option Path} {produced : String → Prop}
    (writable : ∀ path, output = some path → ∃ place, surroundings.tree.target path = .ok place)
    (made : ∀ text, produced text ↔ Script.ofDocument .standard document = .ok text) :
    AllOrNothing surroundings.tree output produced (generate surroundings file output document) := by
  unfold generate
  cases written : Script.ofDocument .standard document with
  | ok text =>
    refine allOrNothing_deliver writable fun other => ?_
    rw [made, written, Except.ok.injEq, eq_comm]
  | error error =>
    refine allOrNothing_of_failed (fun text => ?_) (failed_rejected _ _)
    rw [made, written]
    simp

theorem allOrNothing_script {output : Option Path} (schema : Option String)
    (writable : ∀ path, output = some path → ∃ place, surroundings.tree.target path = .ok place)
    (parsed : Xml.parse 0 file.content = .ok document) :
    AllOrNothing surroundings.tree output
      (Makes surroundings folders (.script output schema) document)
      (act surroundings folders file (.script output schema)) := by
  obtain ⟨warnings, ran⟩ := withDocument_ok .text _ parsed
  rw [act, ran]
  refine AllOrNothing.after ?_ _
  cases schema with
  | none => exact allOrNothing_generate writable fun text => by simp [makes_script_iff]
  | some source =>
    have made : ∀ text, Makes surroundings folders (.script output (some source)) document text ↔
        issuesUnder surroundings folders source document = .ok [] ∧
          Script.ofDocument .standard document = .ok text := by
      simp [makes_script_iff, conforms_iff]
    simp only
    split
    · rename_i error found
      exact allOrNothing_of_failed (fun text => by simp [made, found]) (failed_rejected _ _)
    · rename_i found
      exact allOrNothing_generate writable fun text => by simp [made, found]
    · rename_i issues some found
      refine allOrNothing_of_failed (fun text => ?_) (failed_rejected _ _)
      rw [made, found, Except.ok.injEq]
      exact fun both => some both.1

theorem allOrNothing_xml {output : Option Path} (cdata compact : Bool)
    (writable : ∀ path, output = some path → ∃ place, surroundings.tree.target path = .ok place)
    (parsed : Xml.parse 0 file.content = .ok document) :
    AllOrNothing surroundings.tree output
      (Makes surroundings folders (.xml output cdata compact) document)
      (act surroundings folders file (.xml output cdata compact)) := by
  obtain ⟨warnings, ran⟩ := withDocument_ok .text _ parsed
  rw [act, ran]
  exact (allOrNothing_deliver writable fun _ => makes_xml_iff).after _

theorem reportsLine_validity {outcome : Outcome} {messages : List Message}
    (stdout : outcome.stdout = validityLine (outcome.exit == 0) messages)
    (listed : messages = [] ↔ outcome.exit = 0) : ReportsLine outcome := by
  let fields : List (String × Json) :=
    [("diagnostics", .array (messages.map Message.report)), ("valid", .bool (outcome.exit == 0))]
  refine ⟨Json.text (.object fields), fields, messages.map Message.report, ?_,
    Json.newline_not_mem_text _, Json.read?_text _, rfl, rfl, ?_⟩
  · rw [stdout, validityLine, String.toList_append]
    rfl
  · rw [List.map_eq_nil_iff, listed]

variable {format : Format} {valid : Prop} {outcome : Outcome}

theorem verdict_rejected (files : Files) {messages : List Message} (some : messages ≠ [])
    (invalid : ¬ valid) : Verdict (format = .json) valid (rejected format messages files) := by
  cases format with
  | text => exact ⟨by simp [rejected, Outcome.failure, invalid], fun _ => rfl, rfl, by simp⟩
  | json =>
    refine ⟨by simp [rejected, Outcome.failure, invalid], fun _ => rfl, rfl, fun _ => ?_⟩
    exact reportsLine_validity rfl (by simp [rejected, Outcome.failure, some])

theorem Verdict.after (verdict : Verdict (format = .json) valid outcome) (stderr : String) :
    Verdict (format = .json) valid (outcome.after "" stderr) := by
  refine ⟨verdict.exit, verdict.failure, verdict.output, fun json => ?_⟩
  obtain ⟨line, fields, diagnostics, stdout, rest⟩ := verdict.report json
  exact ⟨line, fields, diagnostics, by rw [Outcome.stdout_after, stdout], rest⟩

theorem Verdict.congr {reported reported' valid' : Prop} (verdict : Verdict reported valid outcome)
    (less : reported' → reported) (same : valid ↔ valid') : Verdict reported' valid' outcome :=
  ⟨verdict.exit.trans same, verdict.failure, verdict.output, fun asked => verdict.report (less asked)⟩

theorem Verdict.progress (verdict : Verdict (format = .json) valid outcome) (line : String) :
    Verdict (format = .json) valid (progress format line outcome) := by
  cases format with
  | text => exact ⟨verdict.exit, verdict.failure, verdict.output, by simp⟩
  | json => exact verdict

/-- What follows in a validation when the document has been parsed. -/
def judge (surroundings : Surroundings) (folders : List Path) (file : File) (source : String)
    (format : Format) (document : Document) : Outcome :=
  match issuesUnder surroundings folders source document with
  | .error error => rejected format [error.diagnostic] []
  | .ok issues =>
    Command.progress format "Validating document..." <|
      match issues, format with
      | [], .text => .success "Congratulations! The file is valid.\n"
      | [], .json => .success (validityLine true [])
      | issues, format =>
        Command.progress format "Uh-oh! The KML file is invalid."
          (rejected format (issues.map (·.diagnostic)) [file])

theorem verdict_judge (source : String) :
    Verdict (format = .json) (Conforms surroundings folders source document)
      (judge surroundings folders file source format document) := by
  unfold judge
  cases found : issuesUnder surroundings folders source document with
  | error error =>
    refine verdict_rejected [] (List.cons_ne_nil _ []) ?_
    simp [conforms_iff, found]
  | ok issues =>
    refine Verdict.progress ?_ _
    cases issues with
    | nil =>
      have conforms := conforms_iff.mpr found
      cases format with
      | text => exact ⟨by simp [Outcome.success, conforms], by simp [Outcome.success], rfl, by simp⟩
      | json =>
        refine ⟨by simp [Outcome.success, conforms], by simp [Outcome.success], rfl, fun _ => ?_⟩
        exact reportsLine_validity rfl (by simp [Outcome.success])
    | cons issue issues =>
      refine (verdict_rejected [file] ?_ ?_).progress _
      · simp
      · simp [conforms_iff, found]

theorem validate_eq (schema : Option String) : validate surroundings folders file schema format =
    match schema with
    | some source => withDocument file format (judge surroundings folders file source format)
    | none => progress format ("Validating against the default schema: " ++ defaultSchema)
        (withDocument file format (judge surroundings folders file defaultSchema format)) := by
  cases schema <;> rfl

/-- Whatever is said before it, the outcome of a validation is that of its last step. -/
theorem verdict_validate (schema : Option String)
    (settled : Verdict (format = .json) valid (withDocument file format
      (judge surroundings folders file (schema.getD defaultSchema) format))) :
    Verdict (format = .json) valid (validate surroundings folders file schema format) := by
  rw [validate_eq]
  cases schema with
  | none => exact settled.progress _
  | some source => exact settled

end Actions

/-- A run with arguments that are right reads its input and acts. -/
theorem run_eq {surroundings : Surroundings} {arguments : List String} {invocation : Invocation}
    {folders : List Path} (parsed : parse arguments = .ok (.run invocation))
    (searched : searchFolders surroundings invocation = .ok folders) :
    run surroundings arguments =
      match readInput surroundings invocation.input with
      | .error failure => failure.outcome
      | .ok file => act surroundings folders file invocation.action := by
  unfold run
  simp only [parsed, searched, bind, Except.bind, pure, Except.pure]
  cases readInput surroundings invocation.input <;> rfl

section Runs

variable {surroundings : Surroundings} {arguments : List String} {invocation : Invocation}
  {folders : List Path}

theorem isSome_afterScheme?_iff {source : List Char} : (Schema.afterScheme? source).isSome ↔
    "http://".toList <+: source ∨ "https://".toList <+: source := by
  unfold Schema.afterScheme?
  simp only [← List.isPrefixOf_iff_prefix]
  cases "http://".toList.isPrefixOf source <;> cases "https://".toList.isPrefixOf source <;> simp

theorem readable_iff {input content : String} : Readable surroundings input content ↔
    ∃ file, readInput surroundings input = .ok file ∧ file.content = content := by
  constructor
  · intro readable
    cases readable with
    | stdin given =>
      have noAddress : ¬ (Schema.afterScheme? "-".toList).isSome := by decide
      refine ⟨⟨"<stdin>", content⟩, ?_, rfl⟩
      rw [readInput, if_neg noAddress, if_pos rfl, decode_eq_ok_iff.mpr given]
    | file other plain secure holds =>
      have noAddress : ¬ (Schema.afterScheme? input.toList).isSome := by
        rw [isSome_afterScheme?_iff, not_or]
        exact ⟨plain, secure⟩
      refine ⟨⟨input, content⟩, ?_, rfl⟩
      rw [readInput, if_neg noAddress, if_neg other, Tree.read_eq_ok_iff.mpr holds]
  · rintro ⟨file, read, rfl⟩
    unfold readInput at read
    split at read
    · cases read
    · rename_i noAddress
      rw [isSome_afterScheme?_iff, not_or] at noAddress
      split at read
      · rename_i dash
        subst dash
        split at read
        · rename_i decoded
          cases read
          exact .stdin (decode_eq_ok_iff.mp decoded)
        · cases read
      · rename_i other
        split at read
        · rename_i found
          cases read
          exact .file other noAddress.1 noAddress.2 (Tree.read_eq_ok_iff.mp found)
        · cases read

theorem reads_iff {input : String} {file : File} {document : Document}
    (found : readInput surroundings input = .ok file) :
    Reads surroundings input document ↔ Xml.parse 0 file.content = .ok document := by
  simp [Reads, readable_iff, found]

theorem allOrNothing_run {output : Option Path} (parsed : parse arguments = .ok (.run invocation))
    (searched : searchFolders surroundings invocation = .ok folders)
    (acts : ∀ file document, Xml.parse 0 file.content = .ok document →
      AllOrNothing surroundings.tree output (Makes surroundings folders invocation.action document)
        (act surroundings folders file invocation.action))
    (rejects : ∀ file error, Xml.parse 0 file.content = .error error →
      Failed surroundings.tree (act surroundings folders file invocation.action)) :
    AllOrNothing surroundings.tree output (Produces surroundings folders invocation)
      (run surroundings arguments) := by
  rw [run_eq parsed searched]
  cases found : readInput surroundings invocation.input with
  | error failure =>
    refine allOrNothing_of_failed ?_ (failed_failure _)
    rintro text ⟨document, ⟨content, readable, -⟩, -⟩
    obtain ⟨file, read, -⟩ := readable_iff.mp readable
    rw [found] at read
    cases read
  | ok file =>
    cases result : Xml.parse 0 file.content with
    | error error =>
      refine allOrNothing_of_failed ?_ (rejects file error result)
      rintro text ⟨document, reads, -⟩
      rw [reads_iff found, result] at reads
      cases reads
    | ok document =>
      refine (acts file document result).congr fun text => ?_
      simp [Produces, reads_iff found, result]

theorem verdict_run {schema : Option String} {format : Format}
    (parsed : parse arguments = .ok (.run invocation))
    (searched : searchFolders surroundings invocation = .ok folders)
    (action : invocation.action = .validate schema format) :
    Verdict (format = .json ∧ ∃ content, Readable surroundings invocation.input content)
      (∃ document, Reads surroundings invocation.input document ∧
        Conforms surroundings folders (schema.getD defaultSchema) document)
      (run surroundings arguments) := by
  rw [run_eq parsed searched, action]
  cases found : readInput surroundings invocation.input with
  | error failure =>
    refine ⟨?_, fun _ => rfl, rfl, by simp [readable_iff, found]⟩
    simp [Reads, readable_iff, found, Failure.outcome, Outcome.failure]
  | ok file =>
    refine (verdict_validate schema ?_).congr And.left Iff.rfl
    cases result : Xml.parse 0 file.content with
    | error error =>
      rw [withDocument_error format _ result]
      refine verdict_rejected [file] (List.cons_ne_nil _ []) ?_
      simp [reads_iff found, result]
    | ok document =>
      obtain ⟨warnings, ran⟩ := withDocument_ok format
        (judge surroundings folders file (schema.getD defaultSchema) format) result
      rw [ran]
      refine ((verdict_judge _).after _).congr id ?_
      simp [reads_iff found, result]

/-- The results of the program are all or nothing: a script or a document is delivered if every stage
before it succeeds, and otherwise the exit status is one and nothing is left. A validation tells by
its exit status whether the document conforms, and says the same in the line that reports it. -/
theorem run_all_or_nothing (surroundings : Surroundings) (arguments : List String)
    (invocation : Invocation) (folders : List Path)
    (parsed : parse arguments = .ok (.run invocation))
    (searched : searchFolders surroundings invocation = .ok folders)
    (writable : ∀ path, invocation.action.output? = some path →
      ∃ place, surroundings.tree.target path = .ok place) :
    (∀ output schema, invocation.action = .script output schema →
      AllOrNothing surroundings.tree output (Produces surroundings folders invocation)
        (run surroundings arguments)) ∧
    (∀ output cdata compact, invocation.action = .xml output cdata compact →
      AllOrNothing surroundings.tree output (Produces surroundings folders invocation)
        (run surroundings arguments)) ∧
    (∀ schema format, invocation.action = .validate schema format →
      Verdict (format = .json ∧ ∃ content, Readable surroundings invocation.input content)
        (∃ document, Reads surroundings invocation.input document ∧
          Conforms surroundings folders (schema.getD defaultSchema) document)
        (run surroundings arguments)) := by
  refine ⟨fun output schema action => ?_, fun output cdata compact action => ?_,
    fun schema format action => verdict_run parsed searched action⟩
  all_goals
    rw [action] at writable
    refine allOrNothing_run parsed searched (fun file document result => ?_) fun file error result => ?_
    all_goals rw [action]
  · exact allOrNothing_script schema writable result
  · rw [act, withDocument_error .text _ result]
    exact failed_rejected _ _
  · exact allOrNothing_xml cdata compact writable result
  · rw [act, withDocument_error .text _ result]
    exact failed_rejected _ _

end Runs

/-- A folder with a document and a schema for it, and another document on standard input. -/
def desk : Surroundings :=
  ⟨⟨[(["desk", "in.xml"], .file "<a/>".toUTF8), (["desk", "a.xsd"], .file
      "<s:schema xmlns:s='http://www.w3.org/2001/XMLSchema'><s:element name='a'/></s:schema>".toUTF8)],
    ["desk"]⟩, "<b>x</b>".toUTF8, none⟩

/-- The document in that folder. -/
def single : Document := ⟨[], ⟨⟨⟨none, "a"⟩, none, [], [], none, some ⟨0, 0, 4⟩⟩, .empty⟩, []⟩

theorem readable_desk : Readable desk "in.xml" "<a/>" := by
  refine .file (by decide) (by decide) (by decide) ⟨by decide, by decide, ["desk", "in.xml"], ?_, rfl⟩
  exact Tree.leads_iff.mpr rfl

theorem conforms_desk : Conforms desk [] "a.xsd" single := by
  let read := Schema.Progress.start.addFile desk.tree ⟨"a.xsd"⟩ ["desk", "a.xsd"] none
  have found : Schema.find desk.tree [] "a.xsd" none = .ok ⟨"a.xsd"⟩ := by rfl
  have known : desk.tree.file? ⟨"a.xsd"⟩ = some ["desk", "a.xsd"] := by rfl
  have flawless : read.2 = none := Option.isNone_iff_eq_none.mp (by decide +kernel)
  have added : Schema.Progress.start.addFile desk.tree ⟨"a.xsd"⟩ ["desk", "a.xsd"] none =
      (read.1, none) := by rw [← flawless]
  have done : read.1.waiting = [] := List.isEmpty_iff.mp (by decide +kernel)
  refine ⟨⟨"a.xsd"⟩, read.1.components, ?_, List.isEmpty_iff.mp (by decide +kernel)⟩
  simp [Schema.load, found, known, added, Schema.Progress.settle_nil _ _ done, bind, Except.bind, pure,
    Except.pure]

/-- A document is written anew to a file, and it is translated and accepted under its schema; another
one, for which there is no schema, is rejected in one line. -/
theorem run_all_or_nothing_file :
    let arguments := ["xml", "in.xml", "-o", "out.xml"]
    let invocation : Invocation := ⟨.xml (some ⟨"out.xml"⟩) false false, "in.xml", none⟩
    parse arguments = .ok (.run invocation) ∧ searchFolders desk invocation = .ok [] ∧
    (∀ path, invocation.action.output? = some path →
      ∃ place, desk.tree.target path = .ok place) ∧
    Readable desk "in.xml" "<a/>" ∧
    AllOrNothing desk.tree (some ⟨"out.xml"⟩) (Produces desk [] invocation) (run desk arguments) ∧
    (run desk arguments).exit = 0 ∧
    Delivers desk.tree (some ⟨"out.xml"⟩) "<?xml version=\"1.0\" encoding=\"UTF-8\"?>\n<a/>\n"
      (run desk arguments) ∧
    Conforms desk [] "a.xsd" single ∧
    (∃ text, Script.ofDocument .standard single = .ok text ∧
      Delivers desk.tree none text (run desk ["script", "in.xml", "--schema", "a.xsd"])) ∧
    (run desk ["validate", "in.xml", "--schema", "a.xsd"]).exit = 0 ∧
    Readable desk "-" "<b>x</b>" ∧ ReportsLine (run desk ["validate", "-", "--format", "json"]) := by
  intro arguments invocation
  have parsed : parse arguments = .ok (.run invocation) := by rfl
  have searched : searchFolders desk invocation = .ok [] := rfl
  have writable : ∀ path, invocation.action.output? = some path →
      ∃ place, desk.tree.target path = .ok place := by
    intro path same
    obtain rfl := Option.some.inj same
    exact ⟨["desk", "out.xml"], by rfl⟩
  have reads : Reads desk "in.xml" single := ⟨"<a/>", readable_desk, by rfl⟩
  have settled := (run_all_or_nothing desk arguments invocation []
    parsed searched writable).2.1 _ _ _ rfl
  have produced : Produces desk [] invocation
      "<?xml version=\"1.0\" encoding=\"UTF-8\"?>\n<a/>\n" :=
    ⟨single, reads, makes_xml_iff.mpr (by rfl)⟩
  have translated : ∃ text, Script.ofDocument .standard single = .ok text := by
    have sound : (Script.ofDocument .standard single).toOption.isSome := by decide +kernel
    cases script : Script.ofDocument .standard single with
    | ok text => exact ⟨text, rfl⟩
    | error error => simp [script, Except.toOption] at sound
  obtain ⟨text, translated⟩ := translated
  have scripted := (run_all_or_nothing desk ["script", "in.xml", "--schema", "a.xsd"]
    ⟨.script none (some "a.xsd"), "in.xml", none⟩ []
    (by rfl) rfl (by simp [Action.output?])).1 _ _ rfl
  have accepted := (run_all_or_nothing desk ["validate", "in.xml", "--schema", "a.xsd"]
    ⟨.validate (some "a.xsd") .text, "in.xml", none⟩ []
    (by rfl) rfl (by simp [Action.output?])).2.2 _ _ rfl
  have conforming : ∀ source, some "a.xsd" = some source → Conforms desk [] source single := by
    rintro _ ⟨⟩
    exact conforms_desk
  have given : Readable desk "-" "<b>x</b>" := .stdin rfl
  have judged := (run_all_or_nothing desk ["validate", "-", "--format", "json"]
    ⟨.validate none .json, "-", none⟩ [] (by rfl) rfl (by simp [Action.output?])).2.2 _ _ rfl
  exact ⟨parsed, searched, writable, readable_desk, settled, settled.exit.mpr ⟨_, produced⟩,
    settled.result _ produced, conforms_desk,
    ⟨text, translated, scripted.result text
      ⟨single, reads, makes_script_iff.mpr ⟨conforming, translated⟩⟩⟩,
    accepted.exit.mpr ⟨single, reads, conforms_desk⟩, given, judged.report ⟨rfl, _, given⟩⟩

end KeyholeMarkup.Command

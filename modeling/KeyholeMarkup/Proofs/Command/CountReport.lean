import KeyholeMarkup.Proofs.Command.Outcomes
import KeyholeMarkup.Proofs.Xml.Counts
import KeyholeMarkup.Proofs.Xml.NormalForm

/-! The report of counts as JSON. Elements without a namespace are listed under the empty name, which
tells them apart because no namespace of a document that has been read is empty. -/
namespace KeyholeMarkup.Command
open KeyholeMarkup.Xml OrderedMap

def numberOf? : Json → Option Nat
  | .number (.ofNat number) 0 => some number
  | _ => none

def uriOf (field : String) : Option String := if field = "" then none else some field

/-- Reads the fields of an object as the entries of a map. -/
def entriesOf? {α β : Type} (key : String → α) (value? : Json → Option β) : Json → Option (List (α × β))
  | .object fields => fields.mapM fun field => (value? field.2).map (key field.1, ·)
  | _ => none

/-- Reads counts back from their report. -/
def countsOf? : Json → Option ElementCounts := entriesOf? uriOf (entriesOf? id numberOf?)

/-- A line on standard output is a JSON object with one field for each namespace, all of them apart, from
which the counts are read back. -/
structure ReportsCounts (counts : ElementCounts) (outcome : Outcome) : Prop where
  exit : outcome.exit = 0
  output : outcome.output = none
  apart : (counts.map fun block => block.1.getD "").Nodup
  report : ∃ line fields, outcome.stdout.toList = line ++ ['\n'] ∧ '\n' ∉ line ∧
    Json.read? line = some (.object fields) ∧
    fields.map (·.1) = counts.map (fun block => block.1.getD "") ∧
    countsOf? (.object fields) = some counts

theorem ofMap_of_ordered {fields : List (String × Json)} (ordered : Ordered textBefore fields) :
    Json.ofMap fields = .object fields :=
  congrArg Json.object (foldl_set isOrder_textBefore ordered)

theorem entriesOf?_object {α β : Type} {key : String → α} {value? : Json → Option β} (name : α → String)
    (json : β → Json) {entries : List (α × β)}
    (kept : ∀ entry ∈ entries, key (name entry.1) = entry.1 ∧ value? (json entry.2) = some entry.2) :
    entriesOf? key value? (.object (entries.map fun entry => (name entry.1, json entry.2))) =
      some entries := by
  rw [entriesOf?]
  induction entries with
  | nil => rfl
  | cons entry rest ih =>
    obtain ⟨⟨own, held⟩, later⟩ := List.forall_mem_cons.mp kept
    rw [List.map_cons, List.mapM_cons, ih later, held, Option.map_some, own]
    rfl

theorem uriOf_getD {uri : Option String} (named : uri ≠ some "") : uriOf (uri.getD "") = uri := by
  cases uri with
  | none => rfl
  | some uri => exact if_neg fun empty => named (congrArg some empty)

/-- The order of namespaces is that of their names in the report, where none is empty. -/
theorem textBefore_getD {first second : Option String} (named : second ≠ some "")
    (less : uriBefore first second = true) : textBefore (first.getD "") (second.getD "") = true := by
  cases second with
  | none => cases first <;> cases less
  | some second =>
    cases first with
    | some first => exact less
    | none =>
      apply isOrder_textBefore.total (fun empty => named (congrArg some empty))
      exact decide_eq_false fun less => List.not_lt_nil _ (String.lt_iff.mp less)

def namesJson (names : NameCounts) : Json :=
  .object (names.map fun (name, number) => (name, Json.nat number))

section
variable {counts : ElementCounts} (sorted : counts.Sorted) (named : ∀ block ∈ counts, block.1 ≠ some "")
include sorted named

theorem ordered_fields : Ordered textBefore (counts.map fun block =>
    (block.1.getD "", namesJson block.2)) := by
  apply List.pairwise_map.mpr
  exact sorted.uris.imp_of_mem fun _ second less => textBefore_getD (named _ second) less

theorem countJson_eq : countJson counts =
    .object (counts.map fun block => (block.1.getD "", namesJson block.2)) := by
  rw [countJson]
  refine (congrArg Json.ofMap (List.map_congr_left fun block member => ?_)).trans
    (ofMap_of_ordered (ordered_fields sorted named))
  have ordered : Ordered textBefore (block.2.map fun entry => (entry.1, Json.nat entry.2)) :=
    List.pairwise_map.mpr (sorted.names block member).2
  exact congrArg (block.1.getD "", ·) (ofMap_of_ordered ordered)

omit sorted in
theorem countsOf?_fields : countsOf? (.object (counts.map fun block =>
    (block.1.getD "", namesJson block.2))) = some counts := by
  apply entriesOf?_object (fun uri : Option String => uri.getD "") namesJson
  intro block member
  refine ⟨uriOf_getD (named block member), ?_⟩
  apply entriesOf?_object id Json.nat
  exact fun entry _ => ⟨rfl, rfl⟩

theorem reportsCounts_count : ReportsCounts counts (count counts .json) where
  exit := rfl
  output := rfl
  apart := by
    have nodup := (ordered_fields sorted named).nodup isOrder_textBefore
    rwa [List.map_map] at nodup
  report := by
    refine ⟨Json.text (countJson counts), _, ?_, Json.newline_not_mem_text _, ?_, List.map_map,
      countsOf?_fields named⟩
    · exact String.toList_append
    · rw [Json.read?_text, countJson_eq sorted named]

end

/-- Every block of the counts comes from an element, and the namespaces of those are not empty. -/
theorem uri_ne_of_parse {file : Nat} {text : String} {document : Document}
    (parsed : Xml.parse file text = .ok document) : ∀ block ∈ document.counts, block.1 ≠ some "" := by
  rintro ⟨uri, names⟩ member
  have exact := ElementCounts.exact_ofElements document.root.allElements
  rw [← document.counts_eq] at exact
  obtain ⟨⟨localName, number⟩, entry⟩ := List.exists_mem_of_ne_nil _ (exact.names _ member).1
  have listed : (⟨uri, localName⟩, number) ∈ document.counts.entries :=
    List.mem_flatMap.mpr ⟨_, member, List.mem_map.mpr ⟨_, entry, rfl⟩⟩
  have recorded := (exact.mem_entries_iff _ _).mp listed
  obtain ⟨positive, counted⟩ := (exact.number?_eq_some_iff _ _).mp recorded
  rw [← counted] at positive
  obtain ⟨element, inside, same⟩ := List.countP_pos_iff.mp positive
  have normal := isNormal_of_parse parsed _ (Document.mem_allNodes inside)
  have uri_ne := Element.IsNormal.uri normal
  rwa [show element.tag.name = ⟨uri, localName⟩ from eq_of_beq same] at uri_ne

theorem ReportsCounts.after {counts : ElementCounts} {outcome : Outcome}
    (reports : ReportsCounts counts outcome) (stderr : String) :
    ReportsCounts counts (outcome.after "" stderr) := by
  refine ⟨reports.exit, reports.output, reports.apart, ?_⟩
  rw [Outcome.stdout_after]
  exact reports.report

/-- The counts of a document are those of the elements in its tree, and for a document that has been
read the report as JSON holds all of them: it is one object, and read back it gives the same counts. -/
theorem counts_exact_and_reported :
    (∀ document : Document, document.counts.Exact document.root.allElements) ∧
    ∀ surroundings folders file document, Xml.parse 0 file.content = .ok document →
      ReportsCounts document.counts (act surroundings folders file (.count .json)) := by
  refine ⟨fun document => ?_, fun surroundings folders file document parsed => ?_⟩
  · rw [document.counts_eq]
    exact ElementCounts.exact_ofElements _
  · obtain ⟨warnings, ran⟩ := withDocument_ok .json (fun document => count document.counts .json) parsed
    have sorted : document.counts.Sorted := by
      rw [document.counts_eq]
      exact ElementCounts.sorted_ofElements _
    rw [act, ran]
    exact (reportsCounts_count sorted (uri_ne_of_parse parsed)).after _

theorem counts_exact_and_reported_namespaces :
    let file : Source.File := ⟨"a.kml", "<a><b xmlns='u'><b/></b><c/></a>"⟩
    let counts : ElementCounts := [(none, [("a", 1), ("c", 1)]), (some "u", [("b", 2)])]
    (∃ document, Xml.parse 0 file.content = .ok document ∧ document.counts = counts) ∧
    ReportsCounts counts (act ⟨⟨[], []⟩, "".toUTF8, none⟩ [] file (.count .json)) := by
  intro file counts
  have counted : (Xml.parse 0 file.content).map Document.counts = .ok counts := by
    decide +kernel
  cases parsed : Xml.parse 0 file.content with
  | error error =>
    rw [parsed] at counted
    cases counted
  | ok document =>
    rw [parsed] at counted
    have same : document.counts = counts := Except.ok.inj counted
    rw [← same]
    exact ⟨⟨document, rfl, rfl⟩, counts_exact_and_reported.2 _ _ file document parsed⟩

end KeyholeMarkup.Command

import KeyholeMarkup.Diagnostic.Record
import Mathlib.Data.List.Basic
import Mathlib.Data.Option.Basic
import Mathlib.Logic.Function.Basic

/-! Messages in JSON and back. Records are read back as the messages they were written from, and
reports of different messages differ, whichever parts of a message are absent or empty. Both rest on
the fields of an object being found by their names. -/
namespace KeyholeMarkup
open KeyholeMarkup.Diagnostic KeyholeMarkup.Source

namespace Source.Span

/-- All numbers of a range fit a machine word, as those of every range of a run do. -/
def FitsWord (span : Span) : Prop :=
  span.file < UInt64.size ∧ span.start < UInt64.size ∧ span.stop < UInt64.size

instance (span : Span) : Decidable span.FitsWord := inferInstanceAs (Decidable (_ ∧ _))

end Source.Span

namespace Diagnostic

def Detail.FitsWord (detail : Detail) : Prop := ∀ location ∈ detail.location, location.FitsWord

def Message.FitsWord (message : Message) : Prop :=
  (∀ detail ∈ message.details, detail.FitsWord) ∧ ∀ location ∈ message.location, location.FitsWord

/-- The value of a list field. -/
def listValue? : List Json → Option Json
  | [] => none
  | items => some (.array items)

@[simp] theorem field?_listField (other name : String) (items : List Json) :
    Json.field? (listField other items) name = if other = name then listValue? items else none := by
  cases items <;> simp [listField, listValue?]

theorem fieldValues?_span (span : Span) : fieldValues? ["file_id", "start", "end"] span.toJson =
    some [some (.nat span.file), some (.nat span.start), some (.nat span.stop)] := by
  simp [fieldValues?, Span.toJson]

theorem fieldValues?_detail (detail : Detail) :
    fieldValues? ["kind", "content", "location"] detail.record =
      some [some (.string detail.bullet.label), some detail.wording.record,
        detail.location.map Span.toJson] := by
  simp [fieldValues?, Detail.record]

theorem fieldValues?_detailReport (detail : Detail) :
    fieldValues? ["kind", "content", "location"] detail.report =
      some [some (.string detail.bullet.keyword), some detail.wording.report,
        detail.location.map Span.toJson] := by
  simp [fieldValues?, Detail.report]

theorem fieldValues?_record (message : Message) :
    fieldValues? ["code", "title", "kind", "problem", "details", "hints", "location"]
      message.record = some [message.code.map .string, some (.string message.title),
        some (.string message.severity.label),
        some ((message.problem.map Wording.record).getD .null),
        some (.array (message.details.map Detail.record)),
        some (.array (message.hints.map Wording.record)), message.location.map Span.toJson] := by
  simp [fieldValues?, Message.record]

theorem fieldValues?_report (message : Message) :
    fieldValues? ["code", "title", "kind", "problem", "details", "hints", "location"]
      message.report = some [message.code.map .string, some (.string message.title),
        some (.string message.severity.keyword), message.problem.map Wording.report,
        listValue? (message.details.map Detail.report),
        listValue? (message.hints.map Wording.report),
        message.location.map Span.toJson] := by
  simp [fieldValues?, Message.report]

/-- Values that fit are read back as they were written, others not at all. -/
def ReadsBack {α : Type} (value? : Json → Option α) (json : α → Json) (fits : α → Prop) : Prop :=
  ∀ a other, value? (json a) = some other ↔ a = other ∧ fits a

section
variable {α : Type} {value? : Json → Option α} {json : α → Json} {fits : α → Prop}

theorem ReadsBack.list (reads : ReadsBack value? json fits) :
    ReadsBack (readList? value?) (fun items => .array (items.map json))
      (fun items => ∀ item ∈ items, fits item) := by
  intro items
  rw [readList?]
  induction items with
  | nil => simp [eq_comm]
  | cons item items ih =>
    intro others
    simp only [List.map_cons, List.mapM_cons, Option.bind_eq_bind, Option.bind_eq_some_iff,
      Option.pure_def, Option.some.injEq, reads item, ih, List.forall_mem_cons]
    constructor
    · rintro ⟨_, ⟨rfl, own⟩, _, ⟨rfl, fit⟩, rfl⟩
      exact ⟨rfl, own, fit⟩
    · rintro ⟨rfl, own, fit⟩
      exact ⟨item, ⟨rfl, own⟩, items, ⟨rfl, fit⟩, rfl⟩

theorem ReadsBack.optional (reads : ReadsBack value? json fits) (present : ∀ a, json a ≠ .null)
    (a? other? : Option α) : readOptional? value? (a?.map json) = some other? ↔
      a? = other? ∧ ∀ a ∈ a?, fits a := by
  cases a? with
  | none => simp [readOptional?]
  | some a =>
    have value : readOptional? value? (some (json a)) = (value? (json a)).map some := by
      unfold readOptional?
      split <;> simp_all
    cases other? with
    | none => simp [value]
    | some other => simp [value, reads a other]

theorem readOptional?_getD (a? : Option α) :
    readOptional? value? (some ((a?.map json).getD .null)) =
      readOptional? value? (a?.map json) := by
  cases a? <;> rfl

end

theorem readsBack_string : ReadsBack readString? .string (fun _ => True) := by
  simp [ReadsBack, readString?]

theorem readsBack_nat : ReadsBack readNat? .nat (· < UInt64.size) := by
  intro n other
  simp [Json.nat, readNat?, and_comm]

theorem readsBack_span : ReadsBack readSpan? Span.toJson Span.FitsWord := by
  rintro ⟨file, start, stop⟩ other
  rw [readSpan?, fieldValues?_span]
  simp only [Option.bind_eq_bind, Option.bind_some, Option.bind_eq_some_iff, Option.pure_def,
    Option.some.injEq, readsBack_nat _ _]
  constructor
  · rintro ⟨_, ⟨rfl, first⟩, _, ⟨rfl, second⟩, _, ⟨rfl, third⟩, same⟩
    exact ⟨same, first, second, third⟩
  · rintro ⟨same, first, second, third⟩
    exact ⟨_, ⟨rfl, first⟩, _, ⟨rfl, second⟩, _, ⟨rfl, third⟩, same⟩

theorem readsBack_severity :
    ReadsBack (readKind? Severity.ofLabel?) (.string ·.label) (fun _ => True) := by
  rintro severity other
  cases severity <;> simp [readKind?, Severity.label, Severity.ofLabel?]

theorem readsBack_bullet :
    ReadsBack (readKind? Bullet.ofLabel?) (.string ·.label) (fun _ => True) := by
  rintro bullet other
  cases bullet <;> simp [readKind?, Bullet.label, Bullet.ofLabel?]

theorem readsBack_wording : ReadsBack Wording.ofRecord? Wording.record (fun _ => True) := by
  rintro wording other
  cases wording <;> simp [Wording.record, Wording.ofRecord?]

theorem Span.toJson_ne_null (span : Span) : span.toJson ≠ .null := by
  simp [Span.toJson]

theorem Wording.record_ne_null (wording : Wording) : wording.record ≠ .null := by
  cases wording <;> simp [Wording.record]

theorem readsBack_detail : ReadsBack Detail.ofRecord? Detail.record Detail.FitsWord := by
  rintro ⟨bullet, wording, location⟩ other
  rw [Detail.ofRecord?, fieldValues?_detail]
  simp only [Option.bind_eq_bind, Option.bind_some, Option.bind_eq_some_iff, Option.pure_def,
    Option.some.injEq, readsBack_bullet _ _, readsBack_wording _ _,
    readsBack_span.optional Span.toJson_ne_null]
  constructor
  · rintro ⟨_, ⟨rfl, -⟩, _, ⟨rfl, -⟩, _, ⟨rfl, fits⟩, same⟩
    exact ⟨same, fits⟩
  · rintro ⟨same, fits⟩
    exact ⟨_, ⟨rfl, trivial⟩, _, ⟨rfl, trivial⟩, _, ⟨rfl, fits⟩, same⟩

theorem readsBack_message : ReadsBack Message.ofRecord? Message.record Message.FitsWord := by
  rintro message other
  rw [Message.ofRecord?, fieldValues?_record]
  simp only [Option.bind_eq_bind, Option.bind_some, Option.bind_eq_some_iff, Option.pure_def,
    Option.some.injEq, readsBack_string.optional (fun _ => by simp), readsBack_string _ _,
    readsBack_severity _ _, readOptional?_getD, readsBack_wording.optional Wording.record_ne_null,
    readsBack_detail.list _ _, readsBack_wording.list _ _,
    readsBack_span.optional Span.toJson_ne_null]
  constructor
  · rintro ⟨_, ⟨rfl, -⟩, _, ⟨rfl, -⟩, _, ⟨rfl, -⟩, _, ⟨rfl, -⟩, _, ⟨rfl, details⟩, _, ⟨rfl, -⟩, _,
      ⟨rfl, location⟩, same⟩
    exact ⟨same, details, location⟩
  · rintro ⟨rfl, details, location⟩
    exact ⟨_, ⟨rfl, by simp⟩, _, ⟨rfl, trivial⟩, _, ⟨rfl, trivial⟩, _, ⟨rfl, by simp⟩, _,
      ⟨rfl, details⟩, _, ⟨rfl, by simp⟩, _, ⟨rfl, location⟩, rfl⟩

theorem listValue?_injective : Function.Injective listValue? := by
  intro items others same
  cases items <;> cases others <;> simp_all [listValue?]

theorem Severity.keyword_injective : Function.Injective Severity.keyword := by
  intro severity other
  cases severity <;> cases other <;> simp [Severity.keyword]

theorem Bullet.keyword_injective : Function.Injective Bullet.keyword := by
  intro bullet other
  cases bullet <;> cases other <;> simp [Bullet.keyword]

theorem nat_injective : Function.Injective Json.nat := by
  intro n m same
  simp only [Json.nat, Json.number.injEq, and_true] at same
  exact Int.ofNat.inj same

theorem Span.toJson_injective : Function.Injective Span.toJson := by
  rintro ⟨_, _, _⟩ ⟨_, _, _⟩ same
  have fields := congrArg (fieldValues? ["file_id", "start", "end"]) same
  simp only [fieldValues?_span, Option.some.injEq, List.cons.injEq, nat_injective.eq_iff,
    and_true] at fields
  obtain ⟨rfl, rfl, rfl⟩ := fields
  rfl

theorem Wording.report_injective : Function.Injective Wording.report := by
  intro wording other
  cases wording <;> cases other <;> simp [Wording.report]

theorem Detail.report_injective : Function.Injective Detail.report := by
  rintro ⟨_, _, _⟩ ⟨_, _, _⟩ same
  have fields := congrArg (fieldValues? ["kind", "content", "location"]) same
  simp only [fieldValues?_detailReport, Option.some.injEq, List.cons.injEq, Json.string.injEq,
    Bullet.keyword_injective.eq_iff, Wording.report_injective.eq_iff,
    (Option.map_injective Span.toJson_injective).eq_iff, and_true] at fields
  obtain ⟨rfl, rfl, rfl⟩ := fields
  rfl

theorem Message.report_injective : Function.Injective Message.report := by
  rintro ⟨_, _, _, _, _, _, _⟩ ⟨_, _, _, _, _, _, _⟩ same
  have fields := congrArg
    (fieldValues? ["code", "title", "kind", "problem", "details", "hints", "location"]) same
  have strings : Function.Injective Json.string := fun _ _ => Json.string.inj
  simp only [fieldValues?_report, Option.some.injEq, List.cons.injEq, Json.string.injEq,
    (Option.map_injective strings).eq_iff, Severity.keyword_injective.eq_iff,
    (Option.map_injective Wording.report_injective).eq_iff, listValue?_injective.eq_iff,
    (List.map_injective_iff.2 Detail.report_injective).eq_iff,
    (List.map_injective_iff.2 Wording.report_injective).eq_iff,
    (Option.map_injective Span.toJson_injective).eq_iff, and_true] at fields
  obtain ⟨rfl, rfl, rfl, rfl, rfl, rfl, rfl⟩ := fields
  rfl

/-- Both forms hold the whole message. The record of a message is read back as that message and
as no other, and reports of different messages differ. Locations of a run are machine words; a
record with larger numbers is refused. -/
theorem messages_recoverable :
    (∀ message other : Message,
      Message.ofRecord? message.record = some other ↔ message = other ∧ message.FitsWord) ∧
    Function.Injective Message.report :=
  ⟨readsBack_message, Message.report_injective⟩

end Diagnostic
end KeyholeMarkup

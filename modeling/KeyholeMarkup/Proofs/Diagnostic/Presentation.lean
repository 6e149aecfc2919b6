import KeyholeMarkup.Diagnostic.Text
import Mathlib.Data.List.Forall2
import Mathlib.Data.List.Perm.Basic

/-! What becomes of the details of a message in its text. A text that shows a file hands the details
located in this file to the snippet and lists those without a location; details of other files are in
neither place. A text that shows no file lists them all. The hints close the text. -/
namespace KeyholeMarkup.Diagnostic
open KeyholeMarkup.Source KeyholeMarkup.Text

/-- What a detail becomes in a text. -/
inductive Role
  | label
  | bullet
  | missing
deriving DecidableEq

/-- The role of a detail beside the range that a text shows, if it shows one. -/
def Detail.role (detail : Detail) : Option Span → Role
  | none => .bullet
  | some anchor =>
    match detail.location with
    | none => .bullet
    | some location => if location.file = anchor.file then .label else .missing

/-- A label of a snippet at the location of a detail, with the wording of the detail as its
message. -/
def Detail.LabelledBy (content : List Char) (detail : Detail) (label : Snippet.Label) : Prop :=
  ∃ location, detail.location = some location ∧
    label = Message.label content location detail.wording.text

namespace Message

/-- The range that a text shows: the anchor, if its file is there. -/
def shown? (message : Message) (files : Files) : Option Span :=
  message.anchor?.filter fun anchor => files[anchor.file]?.isSome

def detailsIn (message : Message) (files : Files) (role : Role) : List Detail :=
  message.details.filter (·.role (message.shown? files) = role)

/-- A text with some details of its message as labels of the snippet at its head, behind the one for
the problem, and others as lines. The hints are the last lines. -/
inductive Presents (message : Message) (files : Files) : List Detail → List Detail → String → Prop
  | listed {bulleted : List Detail} (above below : List String) :
      message.Presents files [] bulleted (String.intercalate "\n"
        (above ++ bulleted.map Detail.line ++ below ++ message.hints.map ("? " ++ ·.text)))
  | drawn {labelled bulleted : List Detail} {anchor : Span} {file : File}
      {labels : List Snippet.Label} (shown : message.shown? files = some anchor)
      (present : files[anchor.file]? = some file)
      (placed : List.Forall₂ (Detail.LabelledBy file.content.toList) labelled labels) :
      message.Presents files labelled bulleted (String.intercalate "\n"
        (String.ofList (trimRight (Snippet.render message.snippetHeader file.path
            file.content.toList (charOffset file.content.toList anchor.start)
            (label file.content.toList anchor ((message.problem.map (·.text)).getD message.title) ::
              labels)).toList) ::
          bulleted.map Detail.line ++ message.hints.map ("? " ++ ·.text)))

variable {message : Message} {files : Files} {anchor : Span} {file : File}

theorem shown?_eq_some_iff : message.shown? files = some anchor ↔
    message.anchor? = some anchor ∧ ∃ file, files[anchor.file]? = some file := by
  rw [shown?, Option.filter_eq_some_iff, Option.isSome_iff_exists]

theorem role_eq_missing_iff {shown? : Option Span} {detail : Detail} :
    detail.role shown? = .missing ↔ ∃ anchor location, shown? = some anchor ∧
      detail.location = some location ∧ location.file ≠ anchor.file := by
  cases shown? with
  | none => simp [Detail.role]
  | some anchor => cases located : detail.location <;> simp [Detail.role, located]

theorem role_eq_bullet_iff {detail : Detail} :
    detail.role (some anchor) = .bullet ↔ detail.location.isNone := by
  cases located : detail.location with
  | none => simp [Detail.role, located]
  | some location =>
    by_cases here : location.file = anchor.file <;> simp [Detail.role, located, here]

theorem render_of_shown (shown : message.shown? files = some anchor)
    (present : files[anchor.file]? = some file) :
    message.render files = String.intercalate "\n"
      (String.ofList (trimRight (message.snippet anchor file).toList) ::
        (message.detailsIn files .bullet).map Detail.line ++ message.hintLines) := by
  have anchored := (shown?_eq_some_iff.mp shown).1
  have bullets : message.detailsIn files .bullet = message.details.filter (·.location.isNone) := by
    simp only [detailsIn, shown, role_eq_bullet_iff, Bool.decide_eq_true]
  rw [render, anchored, Option.bind_some, present, Option.map_some, bullets]
  rfl

theorem render_of_not_shown (hidden : message.shown? files = none) :
    message.render files = String.intercalate "\n" (message.plainLines files) := by
  have undrawn : (message.anchor?.bind fun anchor =>
      files[anchor.file]?.map fun file => message.snippet anchor file) = none := by
    rw [Option.bind_eq_none_iff]
    intro anchor anchored
    rw [Option.map_eq_none_iff, Option.eq_none_iff_forall_ne_some]
    intro file present
    have shown := shown?_eq_some_iff.mpr ⟨anchored, file, present⟩
    rw [hidden] at shown
    cases shown
  rw [render, undrawn]

theorem detailsIn_bullet_of_not_shown (hidden : message.shown? files = none) :
    message.detailsIn files .bullet = message.details := by
  simp [detailsIn, hidden, Detail.role]

theorem detailsIn_label_of_not_shown (hidden : message.shown? files = none) :
    message.detailsIn files .label = [] := by
  simp [detailsIn, hidden, Detail.role]

/-- The labels behind the first are those of the details located in the file that is shown. -/
theorem placed_labels (shown : message.shown? files = some anchor) (content : List Char) :
    List.Forall₂ (Detail.LabelledBy content) (message.detailsIn files .label)
      (message.labels anchor content).tail := by
  rw [detailsIn, shown, labels, List.tail_cons]
  induction message.details with
  | nil => exact .nil
  | cons detail details ih =>
    rw [List.filter_cons, List.filterMap_cons]
    cases located : detail.location with
    | none => simpa [Detail.role, located] using ih
    | some location =>
      by_cases here : location.file = anchor.file
      · simpa [Detail.role, located, here, Detail.LabelledBy] using ih
      · simpa [Detail.role, located, here] using ih

theorem presents_render (message : Message) (files : Files) :
    message.Presents files (message.detailsIn files .label) (message.detailsIn files .bullet)
      (message.render files) := by
  cases shown : message.shown? files with
  | none =>
    rw [render_of_not_shown shown, detailsIn_label_of_not_shown shown,
      detailsIn_bullet_of_not_shown shown]
    exact .listed ([message.heading] ++ (message.problem.map (·.text)).toList)
      (message.location.map (locationLine files)).toList
  | some anchor =>
    obtain ⟨-, file, present⟩ := shown?_eq_some_iff.mp shown
    rw [render_of_shown shown present]
    exact .drawn shown present (placed_labels shown file.content.toList)

/-- Every detail has one of the roles. -/
theorem perm_detailsIn (message : Message) (files : Files) :
    (message.detailsIn files .label ++ message.detailsIn files .bullet ++
      message.detailsIn files .missing).Perm message.details := by
  unfold detailsIn
  induction message.details with
  | nil => exact .nil
  | cons detail details ih =>
    cases role : detail.role (message.shown? files) with
    | label => simpa [role] using ih
    | bullet =>
      simp only [List.filter_cons, role, reduceCtorEq, decide_true, decide_false, if_true]
      exact (List.perm_middle.append_right _).trans (ih.cons detail)
    | missing =>
      simp only [List.filter_cons, role, reduceCtorEq, decide_true, decide_false, if_true]
      exact List.perm_middle.trans (ih.cons detail)

/-- The message without the details that are missing in its text. -/
def withoutMissing (message : Message) (files : Files) : Message :=
  { message with details := message.details.filter (·.role (message.shown? files) ≠ .missing) }

theorem withoutMissing_of_not_shown (hidden : message.shown? files = none) :
    message.withoutMissing files = message := by
  simp [withoutMissing, hidden, Detail.role]

theorem anchor?_withoutMissing (message : Message) (files : Files) :
    (message.withoutMissing files).anchor? = message.anchor? := by
  cases shown : message.shown? files with
  | none => rw [withoutMissing_of_not_shown shown]
  | some anchor =>
    have anchored := (shown?_eq_some_iff.mp shown).1
    rw [anchored]
    unfold anchor? at anchored ⊢
    rw [withoutMissing, shown]
    cases own : message.location with
    | some location =>
      rw [own] at anchored
      exact anchored
    | none =>
      -- The anchor is the location of the first detail that has one, and this detail stays.
      rw [own, Option.none_or, List.findSome?_eq_some_iff] at anchored
      obtain ⟨before, detail, after, whole, located, unlocated⟩ := anchored
      have stays : detail.role (some anchor) = .label := by simp [Detail.role, located]
      have earlier : (before.filter (·.role (some anchor) ≠ .missing)).findSome? (·.location) =
          none := by
        rw [List.findSome?_eq_none_iff]
        exact fun other member => unlocated other (List.mem_of_mem_filter member)
      rw [Option.none_or, whole, List.filter_append, List.filter_cons_of_pos (by simp [stays]),
        List.findSome?_append, earlier, Option.none_or, List.findSome?_cons, located]

/-- What is missing leaves no trace: the text is that of the message without these details. -/
theorem render_withoutMissing (message : Message) (files : Files) :
    (message.withoutMissing files).render files = message.render files := by
  cases shown : message.shown? files with
  | none => rw [withoutMissing_of_not_shown shown]
  | some anchor =>
    have same : (message.withoutMissing files).shown? files = some anchor := by
      rw [← shown, shown?, shown?, anchor?_withoutMissing]
    obtain ⟨-, file, present⟩ := shown?_eq_some_iff.mp shown
    have labels : (message.withoutMissing files).labels anchor file.content.toList =
        message.labels anchor file.content.toList := by
      rw [Message.labels, Message.labels, withoutMissing, shown, List.filterMap_filter]
      congr 1
      refine List.filterMap_congr fun detail _ => ?_
      cases located : detail.location with
      | none => simp
      | some location =>
        by_cases here : location.file = anchor.file <;> simp [Detail.role, located, here]
    have bullets : (message.withoutMissing files).detailsIn files .bullet =
        message.detailsIn files .bullet := by
      rw [detailsIn, detailsIn, same, shown, withoutMissing, shown, List.filter_filter]
      refine List.filter_congr fun detail _ => ?_
      cases detail.role (some anchor) <;> rfl
    rw [render_of_shown same present, render_of_shown shown present, bullets, snippet, labels]
    rfl

theorem presents_all_iff (message : Message) (files : Files) :
    (message.detailsIn files .label ++ message.detailsIn files .bullet).Perm message.details ↔
      ∀ anchor, message.shown? files = some anchor → ∀ detail ∈ message.details,
        ∀ location, detail.location = some location → location.file = anchor.file := by
  have all := perm_detailsIn message files
  have complete : (message.detailsIn files .label ++ message.detailsIn files .bullet).Perm
      message.details ↔ message.detailsIn files .missing = [] := by
    constructor
    · intro presented
      have lengths := all.length_eq
      rw [List.length_append, presented.length_eq] at lengths
      exact List.length_eq_zero_iff.mp (by omega)
    · intro none
      rwa [none, List.append_nil] at all
  rw [complete, detailsIn, List.filter_eq_nil_iff]
  simp only [decide_eq_true_eq, role_eq_missing_iff]
  constructor
  · intro present anchor shown detail member location located
    by_contra elsewhere
    exact present detail member ⟨anchor, location, shown, located, elsewhere⟩
  · rintro present detail member ⟨anchor, location, shown, located, elsewhere⟩
    exact elsewhere (present anchor shown detail member location located)

/-- The text of a message presents each detail in one place, as a label of the snippet or as a line,
and then the hints, but for the details that are located in another file than the one shown. These
leave no trace, so that all details are presented exactly if there are none of them. -/
theorem presents_details (message : Message) (files : Files) :
    message.Presents files (message.detailsIn files .label) (message.detailsIn files .bullet)
      (message.render files) ∧
    (message.detailsIn files .label ++ message.detailsIn files .bullet ++
      message.detailsIn files .missing).Perm message.details ∧
    (message.withoutMissing files).render files = message.render files ∧
    ((message.detailsIn files .label ++ message.detailsIn files .bullet).Perm message.details ↔
      ∀ anchor, message.shown? files = some anchor → ∀ detail ∈ message.details,
        ∀ location, detail.location = some location → location.file = anchor.file) :=
  ⟨presents_render message files, perm_detailsIn message files,
    render_withoutMissing message files, presents_all_iff message files⟩

/-- A detail of the second file, in a message that is located in the first. -/
example : (((error "T").withLocation ⟨0, 0, 1⟩).withDetail .error "d" (some ⟨1, 0, 1⟩)).detailsIn
    [⟨"a", "x"⟩, ⟨"b", "y"⟩] .missing = [⟨.error, "d", some ⟨1, 0, 1⟩⟩] := by rfl

end Message
end KeyholeMarkup.Diagnostic

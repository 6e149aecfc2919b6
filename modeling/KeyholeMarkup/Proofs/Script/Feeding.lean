import KeyholeMarkup.Proofs.Script.Layout

/-! An emitter that is fed events in any order, well nested or not, and goes on after those that it
refuses. Its depth, its stage and the comments that it keeps follow from the events and from its
answers to them. -/
namespace KeyholeMarkup.Script
open KeyholeMarkup.Xml

/-- The error for the element of a tag, if its namespace has no builder. -/
def Builders.refusalOf? (builders : Builders) (tag : Tag) : Option Error :=
  match builders.resolve tag.name.uri with
  | some _ => none
  | none => some (.unknownNamespace (tag.name.uri.getD "") tag.name.localName tag.span)

/-- The error with which an event is refused. Closings and comments are always taken. -/
def Builders.refusal? (builders : Builders) : Event → Option Error
  | .opened element => builders.refusalOf? element.tag
  | .closed _ | .comment _ => none

namespace Emitter

/-- Takes in events one after the other, whatever the answers to them, which are given with them. -/
def feed (emitter : Emitter) : List Event → Emitter × List (Event × Option Error)
  | [] => (emitter, [])
  | event :: events =>
    let after := (emitter.emit event).1.feed events
    (after.1, (event, (emitter.emit event).2) :: after.2)

/-- The calls left open by answered events, counted: one more for each opening that is not refused,
and one less, if there is one, for each closing. -/
def openCalls : Nat → List (Event × Option Error) → Nat
  | count, [] => count
  | count, (.opened _, none) :: answered => openCalls (count + 1) answered
  | count, (.opened _, some _) :: answered => openCalls count answered
  | count, (.closed _, _) :: answered => openCalls (count - 1) answered
  | count, (.comment _, _) :: answered => openCalls count answered

/-- Some opening has not been refused. -/
def HasOpened (answered : List (Event × Option Error)) : Prop :=
  ∃ element, (.opened element, none) ∈ answered

/-- The comments that come while the emitter is in a stage. -/
def commentsIn (stage : Stage) (emitter : Emitter) : List Event → List Comment
  | [] => []
  | .comment comment :: events =>
    let later := commentsIn stage (emitter.remark comment) events
    if emitter.stage = stage then comment :: later else later
  | event :: events => commentsIn stage (emitter.emit event).1 events

/-- An emitter with another text. -/
structure Kept (before after : Emitter) : Prop where
  builders : after.builders = before.builders
  stage : after.stage = before.stage
  calls : after.calls = before.calls
  leading : after.leading = before.leading
  trailing : after.trailing = before.trailing

theorem Wrote.kept {before after : Emitter} {added : List Char} {line : Bool}
    (wrote : Wrote before after before.stage added line) : Kept before after :=
  ⟨wrote.builders, wrote.stage, wrote.calls, wrote.leading, wrote.trailing⟩

/-- What an event can do to an emitter, with the answer to it. -/
inductive Takes (before : Emitter) : Event → Option Error → Emitter → Prop
  | refused {element error after} : before.builders.refusal? (.opened element) = some error →
    Kept before after → Takes before (.opened element) (some error) after
  | opened {element after opening} : before.builders.refusal? (.opened element) = none →
    Opened before after opening → Takes before (.opened element) none after
  | closedOutside {element} : before.calls = [] → Takes before (.closed element) none before
  | closed {element after argument} : before.calls = argument :: after.calls →
    after.builders = before.builders →
    after.stage = (if after.calls.isEmpty then .afterRoot else before.stage) →
    after.leading = before.leading → after.trailing = before.trailing →
    Takes before (.closed element) none after
  | commentOutside {comment} : before.calls = [] →
    Takes before (.comment comment) none (before.keep (rootCalls [comment]))
  | commentInside {comment after} : before.calls ≠ [] → Kept before after →
    Takes before (.comment comment) none after

theorem kept_separate (emitter : Emitter) : Kept emitter emitter.separate := by
  unfold separate
  split <;> exact ⟨rfl, rfl, rfl, rfl, rfl⟩

theorem takes_emit (emitter : Emitter) (event : Event) :
    Takes emitter event (emitter.emit event).2 (emitter.emit event).1 := by
  cases event with
  | opened element =>
    cases resolved : emitter.builders.resolve element.tag.name.uri with
    | none =>
      have answer : emitter.enter element = (emitter.separate, some (.unknownNamespace
          (element.tag.name.uri.getD "") element.tag.name.localName element.tag.span)) := by
        simp [enter, Element.name, separate_builders, resolved]
      rw [emit, answer]
      exact .refused (by simp [Builders.refusal?, Builders.refusalOf?, resolved])
        (kept_separate emitter)
    | some builder =>
      obtain ⟨after, entered, opened⟩ := opened_enter emitter element builder resolved
      rw [emit, entered]
      exact .opened (by simp [Builders.refusal?, Builders.refusalOf?, resolved]) opened
  | closed element =>
    cases calls : emitter.calls with
    | nil =>
      have same : emitter.leave element = emitter := by simp [leave, calls]
      rw [emit, same]
      exact .closedOutside calls
    | cons argument outer =>
      have after : (emitter.leave element).calls = outer := by simp [leave, calls]
      have step : emitter.calls = argument :: (emitter.emit (.closed element)).1.calls := by
        rw [calls, emit, after]
      refine .closed step ?_ ?_ ?_ ?_ <;> simp [emit, leave, calls, write]
  | comment comment =>
    by_cases outside : emitter.calls = []
    · rw [emit, remark_outside emitter comment outside]
      exact .commentOutside outside
    · exact .commentInside outside (wrote_remark emitter comment outside).kept

theorem Takes.answer {before after : Emitter} {event : Event} {answer : Option Error}
    (takes : Takes before event answer after) : answer = before.builders.refusal? event := by
  cases takes with
  | refused refusal _ | opened refusal _ => exact refusal.symm
  | closedOutside _ | closed _ _ _ _ _ | commentOutside _ | commentInside _ _ => rfl

theorem keep_builders (emitter : Emitter) (calls : List (List Char)) :
    (emitter.keep calls).builders = emitter.builders := by
  unfold keep
  split <;> rfl

theorem keep_stage (emitter : Emitter) (calls : List (List Char)) :
    (emitter.keep calls).stage = emitter.stage := by
  unfold keep
  split <;> simp [*]

theorem Takes.builders {before after : Emitter} {event : Event} {answer : Option Error}
    (takes : Takes before event answer after) : after.builders = before.builders := by
  cases takes with
  | refused _ kept | commentInside _ kept => exact kept.builders
  | opened _ opened => exact opened.builders
  | closedOutside _ => rfl
  | closed _ builders _ _ _ => exact builders
  | commentOutside _ => exact keep_builders before _

/-- Only inside an open call the emitter is in the tree. -/
def Consistent (emitter : Emitter) : Prop := emitter.stage = .inTree ↔ emitter.calls ≠ []

theorem Takes.consistent {before after : Emitter} {event : Event} {answer : Option Error}
    (takes : Takes before event answer after) (consistent : before.Consistent) :
    after.Consistent := by
  unfold Consistent at *
  cases takes with
  | refused _ kept | commentInside _ kept => rw [kept.stage, kept.calls, consistent]
  | opened _ opened => simp [opened.stage, opened.calls]
  | closedOutside _ => exact consistent
  | closed calls _ stage _ _ =>
    have inside : before.stage = .inTree := consistent.mpr (by simp [calls])
    cases outer : after.calls <;> simp [stage, outer, inside]
  | commentOutside _ => rw [keep_stage, keep_calls, consistent]

/-- What an emitter that has been fed events shows of them, from any beginning. -/
structure Account (before : Emitter) (events : List Event) (after : Emitter)
    (answered : List (Event × Option Error)) : Prop where
  answers : answered = events.map fun event => (event, before.builders.refusal? event)
  consistent : after.Consistent
  depth : after.depth = openCalls before.depth answered
  beforeRoot : after.stage = .beforeRoot ↔ before.stage = .beforeRoot ∧ ¬ HasOpened answered
  leading : after.leading =
    (rootCalls (commentsIn .beforeRoot before events)).reverse ++ before.leading
  trailing : after.trailing =
    (rootCalls (commentsIn .afterRoot before events)).reverse ++ before.trailing

theorem hasOpened_cons {event : Event} {answer : Option Error}
    {answered : List (Event × Option Error)} :
    HasOpened ((event, answer) :: answered) ↔
      (∃ element, event = .opened element ∧ answer = none) ∨ HasOpened answered := by
  simp only [HasOpened, List.mem_cons, Prod.mk.injEq, exists_or]
  simp only [eq_comm]

/-- The depth after one event, and what the stages and the comments are then counted from. -/
theorem Takes.depth {before after : Emitter} {event : Event} {answer : Option Error}
    (takes : Takes before event answer after) (answered : List (Event × Option Error)) :
    openCalls before.depth ((event, answer) :: answered) = openCalls after.depth answered := by
  cases takes with
  | refused _ kept | commentInside _ kept => simp only [openCalls, Emitter.depth, kept.calls]
  | opened _ opened => simp only [openCalls, Emitter.depth, opened.calls, List.length_cons]
  | closedOutside outside => simp [openCalls, Emitter.depth, outside]
  | closed calls _ _ _ _ => simp [openCalls, Emitter.depth, calls]
  | commentOutside outside => simp only [openCalls, Emitter.depth, keep_calls]

theorem Takes.beforeRoot {before after : Emitter} {event : Event} {answer : Option Error}
    (takes : Takes before event answer after) (consistent : before.Consistent) :
    after.stage = .beforeRoot ↔
      before.stage = .beforeRoot ∧ ¬ ∃ element, event = .opened element ∧ answer = none := by
  cases takes with
  | refused _ kept | commentInside _ kept => simp [kept.stage]
  | opened _ opened => simp [opened.stage]
  | closedOutside outside => simp
  | closed calls _ stage _ _ =>
    have inside : before.stage = .inTree := consistent.mpr (by simp [calls])
    cases outer : after.calls <;> simp [stage, outer, inside]
  | commentOutside outside => simp [keep_stage]

theorem reverse_commentsIn_cons (stage : Stage) (emitter : Emitter) (event : Event)
    (events : List Event) :
    (rootCalls (commentsIn stage emitter (event :: events))).reverse =
      (rootCalls (commentsIn stage (emitter.emit event).1 events)).reverse ++
        (rootCalls (commentsIn stage emitter [event])).reverse := by
  rw [← List.reverse_append, rootCalls, rootCalls, rootCalls, ← List.map_append]
  congr 2
  cases event with
  | opened _ | closed _ => simp [commentsIn]
  | comment comment => by_cases now : emitter.stage = stage <;> simp [commentsIn, now, emit]

theorem Takes.comments {before after : Emitter} {event : Event} {answer : Option Error}
    (takes : Takes before event answer after) (consistent : before.Consistent) :
    after.leading = (rootCalls (commentsIn .beforeRoot before [event])).reverse ++ before.leading ∧
      after.trailing =
        (rootCalls (commentsIn .afterRoot before [event])).reverse ++ before.trailing := by
  cases takes with
  | refused _ kept => simp [commentsIn, rootCalls, kept.leading, kept.trailing]
  | opened _ opened => simp [commentsIn, rootCalls, opened.leading, opened.trailing]
  | closedOutside outside => simp [commentsIn, rootCalls]
  | closed _ _ _ leading trailing => simp [commentsIn, rootCalls, leading, trailing]
  | commentOutside outside =>
    have apart : before.stage ≠ .inTree := fun inside => consistent.mp inside outside
    cases stage : before.stage <;> simp_all [commentsIn, rootCalls, keep]
  | commentInside inside kept =>
    have stage : before.stage = .inTree := consistent.mpr inside
    simp [commentsIn, rootCalls, stage, kept.leading, kept.trailing]

theorem account_feed (emitter : Emitter) (events : List Event) (consistent : emitter.Consistent) :
    Account emitter events (emitter.feed events).1 (emitter.feed events).2 := by
  induction events generalizing emitter with
  | nil =>
    refine ⟨rfl, consistent, rfl, ?_, rfl, rfl⟩
    simp [feed, HasOpened]
  | cons event events ih =>
    have takes := takes_emit emitter event
    have rest := ih (emitter.emit event).1 (takes.consistent consistent)
    have comments := takes.comments consistent
    constructor
    · change _ :: _ = _
      rw [rest.answers, takes.answer, takes.builders, List.map_cons]
    · exact rest.consistent
    · exact rest.depth.trans (takes.depth _).symm
    · refine rest.beforeRoot.trans ?_
      rw [takes.beforeRoot consistent, feed, hasOpened_cons, not_or, and_assoc]
    · refine rest.leading.trans ?_
      rw [comments.1, reverse_commentsIn_cons .beforeRoot emitter event events, List.append_assoc]
    · refine rest.trailing.trans ?_
      rw [comments.2, reverse_commentsIn_cons .afterRoot emitter event events, List.append_assoc]

theorem finish_eq_error_iff (emitter : Emitter) (error : Error) :
    emitter.finish = .error error ↔ emitter.stage = .beforeRoot ∧ error = .noRootElement := by
  unfold finish
  cases stage : emitter.stage <;> simp [eq_comm]

/-- What an emitter shows that has been fed events from the start. -/
structure Shows (builders : Builders) (events : List Event) (after : Emitter)
    (answered : List (Event × Option Error)) : Prop where
  answers : answered = events.map fun event => (event, builders.refusal? event)
  depth : after.depth = openCalls 0 answered
  beforeRoot : after.stage = .beforeRoot ↔ ¬ HasOpened answered
  inTree : after.stage = .inTree ↔ 0 < after.depth
  afterRoot : after.stage = .afterRoot ↔ after.depth = 0 ∧ HasOpened answered
  leading : after.leading.reverse = rootCalls (commentsIn .beforeRoot (start builders) events)
  trailing : after.trailing.reverse = rootCalls (commentsIn .afterRoot (start builders) events)
  finish : ∀ error, after.finish = .error error ↔ ¬ HasOpened answered ∧ error = .noRootElement

/-- Whatever events come, depth and stage are as counted from the answers, the comments kept are
those that came before the first call and after a root, and a script can be finished as soon as one
element has been opened. -/
theorem shows_feed (builders : Builders) (events : List Event) :
    Shows builders events ((start builders).feed events).1 ((start builders).feed events).2 := by
  have account := account_feed (start builders) events (by simp [Consistent, start])
  generalize (start builders).feed events = fed at account
  obtain ⟨after, answered⟩ := fed
  have beforeRoot : after.stage = .beforeRoot ↔ ¬ HasOpened answered := by
    simpa [start] using account.beforeRoot
  have inTree : after.stage = .inTree ↔ 0 < after.depth :=
    account.consistent.trans List.length_pos_iff.symm
  refine ⟨account.answers, account.depth, beforeRoot, inTree, ?_, ?_, ?_, ?_⟩
  · have outside : after.depth = 0 ↔ after.stage ≠ .inTree := by
      rw [ne_eq, inTree]
      omega
    have opened : HasOpened answered ↔ after.stage ≠ .beforeRoot := by
      rw [ne_eq, beforeRoot, Classical.not_not]
    rw [outside, opened]
    cases after.stage <;> simp
  · rw [account.leading]
    simp [start]
  · rw [account.trailing]
    simp [start]
  · intro error
    rw [finish_eq_error_iff, beforeRoot]

end Emitter
end KeyholeMarkup.Script

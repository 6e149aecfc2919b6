import KeyholeMarkup.Proofs.Script.Feeding
import Mathlib.Data.List.Induction

/-! Events that are refused, and the emitter without them. Everything but the text is as if they had
not come. In the text a refused opening leaves a comma if the line that it comes to is that of an
opening with a literal; only a comma at the very end is taken away again. -/
namespace KeyholeMarkup.Script
open KeyholeMarkup.Text KeyholeMarkup.Xml

namespace Builders

/-- The events that are not refused. -/
def accepted (builders : Builders) (events : List Event) : List Event :=
  events.filter fun event => (builders.refusal? event).isNone

/-- The last event that was not refused is the opening of an element with a tag literal or text. -/
def AwaitsComma (builders : Builders) (events : List Event) : Prop :=
  ∃ element, (builders.accepted events).getLast? = some (.opened element) ∧
    hasLiteral element.tag 0 = true

/-- An opening is refused on the line of such an element. -/
def Interrupted (builders : Builders) (events : List Event) : Prop :=
  ∃ before event after, events = before ++ event :: after ∧
    (builders.refusal? event).isSome ∧ builders.AwaitsComma before

/-- The last event is refused. -/
def EndsRefused (builders : Builders) (events : List Event) : Prop :=
  ∃ event, events.getLast? = some event ∧ (builders.refusal? event).isSome

variable {builders : Builders} {events : List Event} {event : Event}

theorem accepted_concat_refused (refused : (builders.refusal? event).isSome) :
    builders.accepted (events ++ [event]) = builders.accepted events := by
  have dropped : (builders.refusal? event).isNone = false := by
    rw [← Option.not_isSome, refused]
    rfl
  simp [accepted, dropped]

theorem accepted_concat_taken (taken : builders.refusal? event = none) :
    builders.accepted (events ++ [event]) = builders.accepted events ++ [event] := by
  simp [accepted, taken]

theorem awaitsComma_concat_refused (refused : (builders.refusal? event).isSome) :
    builders.AwaitsComma (events ++ [event]) ↔ builders.AwaitsComma events := by
  rw [AwaitsComma, AwaitsComma, accepted_concat_refused refused]

theorem awaitsComma_concat_taken (taken : builders.refusal? event = none) :
    builders.AwaitsComma (events ++ [event]) ↔
      ∃ element, event = .opened element ∧ hasLiteral element.tag 0 = true := by
  rw [AwaitsComma, accepted_concat_taken taken, List.getLast?_concat]
  simp only [Option.some.injEq]

theorem endsRefused_concat :
    builders.EndsRefused (events ++ [event]) ↔ (builders.refusal? event).isSome := by
  simp [EndsRefused]

theorem interrupted_concat : builders.Interrupted (events ++ [event]) ↔
    builders.Interrupted events ∨ (builders.refusal? event).isSome ∧ builders.AwaitsComma events := by
  constructor
  · rintro ⟨before, refused, after, split, refusal, awaits⟩
    obtain rfl | ⟨earlier, last, rfl⟩ := after.eq_nil_or_concat
    · obtain ⟨rfl, same⟩ := List.append_inj' split rfl
      obtain rfl := List.head_eq_of_cons_eq same
      exact .inr ⟨refusal, awaits⟩
    · rw [List.concat_eq_append, ← List.cons_append, ← List.append_assoc] at split
      exact .inl ⟨before, refused, earlier, (List.append_inj' split rfl).1, refusal, awaits⟩
  · rintro (⟨before, refused, after, rfl, refusal, awaits⟩ | ⟨refusal, awaits⟩)
    · exact ⟨before, refused, after ++ [event], by simp, refusal, awaits⟩
    · exact ⟨events, event, [], rfl, refusal, awaits⟩

end Builders

theorem filled_ofText (text indent indent' : List Char) :
    (Slot.ofText text indent).filled = (Slot.ofText text indent').filled := by
  unfold Slot.ofText
  split
  · rfl
  · split <;> rfl

theorem hasLiteral_eq_zero (tag : Tag) (depth : Nat) : hasLiteral tag depth = hasLiteral tag 0 := by
  rw [hasLiteral, hasLiteral, textSlot, textSlot, filled_ofText]

theorem getLast?_literal (text : List Char) : (literal text).getLast? = some (preferredQuote text) := by
  rw [literal, quoteWith, List.getLast?_concat]

theorem preferredQuote_ne_comma (text : List Char) : preferredQuote text ≠ ',' := by
  unfold preferredQuote
  split <;> decide

theorem getLast?_flatMap_lineLiteral (lines : List (List Char)) :
    (lines.flatMap lineLiteral).getLast? ≠ some ',' := by
  induction lines with
  | nil => simp
  | cons line lines ih =>
    rw [List.flatMap_cons, List.getLast?_append]
    cases last : (lines.flatMap lineLiteral).getLast? with
    | some c => rw [last] at ih; simpa using ih
    | none =>
      unfold lineLiteral
      split
      · simp
      · rw [List.getLast?_concat]
        simp

theorem getLast?_indentAt (depth : Nat) : (indentAt depth).getLast? ≠ some ',' := by
  rw [indentAt, List.getLast?_replicate]
  split <;> simp

/-- The literals of a text end in a quote, a line feed or an indent. -/
theorem getLast?_slot (text : List Char) (depth : Nat) :
    (Slot.ofText text (indentAt depth)).code.getLast? ≠ some ',' := by
  unfold Slot.ofText
  split
  · simp
  · split
    · have indent := getLast?_indentAt depth
      have literals := getLast?_flatMap_lineLiteral (lines text)
      rw [List.getLast?_append, List.getLast?_cons]
      cases last : (indentAt depth).getLast? with
      | some c => rw [last] at indent; simpa using indent
      | none =>
        cases last : ((lines text).flatMap lineLiteral).getLast? with
        | some c => rw [last] at literals; simpa using literals
        | none => simp
    · rw [getLast?_literal]
      simpa using preferredQuote_ne_comma text

theorem getLast?_callHead (builder : String) (tag : Tag) :
    ∃ c, (callHead builder tag).getLast? = some c ∧ c ≠ ',' := by
  unfold callHead
  split
  · refine ⟨'(', ?_, by decide⟩
    rw [List.getLast?_concat]
  · refine ⟨preferredQuote tag.name.localName.toList, ?_, preferredQuote_ne_comma _⟩
    rw [List.getLast?_append, List.getLast?_cons, getLast?_literal]
    rfl

/-- No opening ends in a comma: behind the one that separates its literals stands the second. -/
theorem getLast?_opening (builder : String) (tag : Tag) (depth : Nat) :
    ∃ c, (Opening.ofTag builder tag depth).code.getLast? = some c ∧ c ≠ ',' := by
  rw [opening_eq, List.getLast?_append]
  cases last : (textSlot tag depth).code.getLast? with
  | some c =>
    refine ⟨c, rfl, ?_⟩
    rintro rfl
    exact getLast?_slot _ depth last
  | none =>
    have unfilled : (textSlot tag depth).filled = false := by
      rw [List.getLast?_eq_none_iff] at last
      revert last
      unfold textSlot Slot.ofText
      split
      · simp
      · split <;> simp [literal, quoteWith]
    have bare : separator tag (textSlot tag depth) = [] := by simp [separator, unfilled]
    obtain ⟨c, ends, other⟩ := getLast?_callHead builder tag
    refine ⟨c, ?_, other⟩
    rw [bare, List.append_nil, List.getLast?_append, ends]
    rfl

namespace Emitter

theorem feed_concat (emitter : Emitter) (events : List Event) (event : Event) :
    emitter.feed (events ++ [event]) =
      (((emitter.feed events).1.emit event).1,
        (emitter.feed events).2 ++ [(event, ((emitter.feed events).1.emit event).2)]) := by
  induction events generalizing emitter with
  | nil => rfl
  | cons first events ih => simp only [List.cons_append, feed, ih]

/-- What an event can do to the text, and to the line that is still open. -/
inductive Appends (before : Emitter) : Event → Emitter → Prop
  | refused {element after} : (before.builders.refusal? (.opened element)).isSome →
    after = before.separate → Appends before (.opened element) after
  | opened {element builder after} : before.builders.refusal? (.opened element) = none →
    Opened before after (Opening.ofTag builder element.tag before.depth) →
    Appends before (.opened element) after
  | outside {event after} : (∀ element, event ≠ .opened element) → before.calls = [] →
    after.calls = [] → after.atOpening = before.atOpening → after.stage = before.stage →
    after.text = before.text → Appends before event after
  | line {event after} : (∀ element, event ≠ .opened element) → after.atOpening = false →
    (∃ lines, after.text = before.text ++ (lines ++ [',', '\n'])) → Appends before event after

theorem appends_emit (emitter : Emitter) (event : Event) :
    Appends emitter event (emitter.emit event).1 := by
  cases event with
  | opened element =>
    cases resolved : emitter.builders.resolve element.tag.name.uri with
    | none =>
      have refused : (emitter.enter element).1 = emitter.separate := by
        simp [enter, Element.name, separate_builders, resolved]
      rw [emit, refused]
      exact .refused (by simp [Builders.refusal?, Builders.refusalOf?, resolved]) rfl
    | some builder =>
      obtain ⟨after, entered, opened⟩ := opened_enter emitter element builder resolved
      rw [emit, entered]
      exact .opened (by simp [Builders.refusal?, Builders.refusalOf?, resolved]) opened
  | closed element =>
    cases calls : emitter.calls with
    | nil =>
      have same : emitter.leave element = emitter := by simp [leave, calls]
      rw [emit, same]
      exact .outside (by simp) calls calls rfl rfl rfl
    | cons argument outer =>
      obtain ⟨part, text⟩ : ∃ part,
          (emitter.leave element).text = emitter.text ++ (part ++ [')', ',', '\n']) := by
        simp only [leave, calls]
        exact ⟨_, text_write emitter (_ ++ [')', ',', '\n'])⟩
      have ended : (emitter.leave element).text = emitter.text ++ (part ++ [')'] ++ [',', '\n']) := by
        rw [text, List.append_assoc part]
        rfl
      refine .line (by simp) ?_ ⟨_, ended⟩
      simp [emit, leave, calls]
  | comment comment =>
    by_cases outside : emitter.calls = []
    · rw [emit, remark_outside emitter comment outside]
      refine .outside (by simp) outside ?_ ?_ (keep_stage _ _) ?_
      · rw [keep_calls, outside]
      · unfold keep
        split <;> rfl
      · unfold keep
        split <;> rfl
    · have wrote := wrote_remark emitter comment outside
      have text := wrote.text
      rw [← List.append_assoc emitter.pendingLine] at text
      exact .line (by simp) wrote.atOpening ⟨_, text⟩

/-- Of a refused event nothing is left but the comma before it. -/
theorem emit_refused {emitter : Emitter} {event : Event}
    (refused : (emitter.builders.refusal? event).isSome) :
    (emitter.emit event).1 = emitter.separate := by
  cases appends_emit emitter event with
  | refused _ same => exact same
  | opened taken _ => simp [taken] at refused
  | outside other _ _ _ _ _ | line other _ _ =>
    cases event with
    | opened element => exact absurd rfl (other element)
    | closed _ | comment _ => simp [Builders.refusal?] at refused

theorem separate_eq (emitter : Emitter) :
    emitter.separate = { emitter with written := emitter.separate.written } := by
  unfold separate
  split <;> rfl

theorem text_separate (emitter : Emitter) : emitter.separate.text =
    emitter.text ++ commaIf (emitter.atOpening && emitter.calls.head?.getD false) := by
  unfold separate commaIf
  split
  · rw [text_write]
  · rw [List.append_nil]

/-- Where the text of an emitter that has been fed events ends. -/
structure Ending (builders : Builders) (events : List Event) (emitter : Emitter) : Prop where
  table : emitter.builders = builders
  inside : emitter.atOpening = true → emitter.calls ≠ []
  awaits : builders.AwaitsComma events ↔
    (emitter.atOpening && emitter.calls.head?.getD false) = true
  /-- On an open line only a refused opening can have left a comma. -/
  atOpening : emitter.atOpening = true →
    (emitter.text.getLast? = some ',' ↔ builders.AwaitsComma events ∧ builders.EndsRefused events)
  elsewhere : emitter.atOpening = false → emitter.stage ≠ .beforeRoot →
    ∃ lines, emitter.text = lines ++ [',', '\n']

theorem ending_start (builders : Builders) : Ending builders [] (start builders) := by
  refine ⟨rfl, ?_, ?_, ?_, ?_⟩ <;> simp [start, Builders.AwaitsComma, Builders.accepted]

theorem Ending.refused {builders : Builders} {events : List Event} {event : Event}
    {before : Emitter} (ending : Ending builders events before)
    (refused : (builders.refusal? event).isSome) :
    Ending builders (events ++ [event]) before.separate := by
  have frame := separate_eq before
  have atOpening : before.separate.atOpening = before.atOpening := by rw [frame]
  have stage : before.separate.stage = before.stage := by rw [frame]
  refine ⟨(separate_builders before).trans ending.table, ?_, ?_, ?_, ?_⟩
  · rw [atOpening, separate_calls]
    exact ending.inside
  · rw [Builders.awaitsComma_concat_refused refused, atOpening, separate_calls]
    exact ending.awaits
  · intro opening
    rw [atOpening] at opening
    rw [Builders.awaitsComma_concat_refused refused, Builders.endsRefused_concat, text_separate]
    by_cases awaits : builders.AwaitsComma events
    · simp [ending.awaits.mp awaits, commaIf, awaits, refused]
    · have idle := mt ending.awaits.mpr awaits
      have bare := ending.atOpening opening
      simp only [awaits, false_and, iff_false] at bare ⊢
      rw [Bool.not_eq_true] at idle
      simpa [idle, commaIf] using bare
  · intro closed apart
    rw [atOpening] at closed
    rw [stage] at apart
    rw [text_separate, closed]
    simpa [commaIf] using ending.elsewhere closed apart

theorem Ending.taken {builders : Builders} {events : List Event} {event : Event}
    {before after : Emitter} (ending : Ending builders events before)
    (taken : builders.refusal? event = none) (table : after.builders = builders)
    (appends : Appends before event after) : Ending builders (events ++ [event]) after := by
  cases appends with
  | refused refusal _ => simp [ending.table, taken] at refusal
  | @opened element builder _ _ opened =>
    obtain ⟨c, last, other⟩ := getLast?_opening builder element.tag before.depth
    refine ⟨table, fun _ => by simp [opened.calls], ?_, fun _ => ?_, ?_⟩
    · rw [Builders.awaitsComma_concat_taken taken, opened.atOpening, opened.calls, hasLiteral_eq,
        hasLiteral_eq_zero]
      simp
    · rw [Builders.endsRefused_concat, opened.text, List.getLast?_append, last]
      simp [other, taken]
    · simp [opened.atOpening]
  | outside other outside calls atOpening stage text =>
    have closed : before.atOpening = false :=
      Bool.not_eq_true _ ▸ fun opening => ending.inside opening outside
    rw [closed] at atOpening
    refine ⟨table, by simp [atOpening], ?_, by simp [atOpening], fun _ apart => ?_⟩
    · rw [Builders.awaitsComma_concat_taken taken]
      simp [atOpening, other]
    · rw [text]
      exact ending.elsewhere closed (stage ▸ apart)
  | line other closed wrote =>
    obtain ⟨lines, text⟩ := wrote
    refine ⟨table, by simp [closed], ?_, by simp [closed], fun _ _ => ?_⟩
    · rw [Builders.awaitsComma_concat_taken taken]
      simp [closed, other]
    · exact ⟨_, text.trans (List.append_assoc _ _ _).symm⟩

theorem ending_feed (builders : Builders) (events : List Event) :
    Ending builders events ((start builders).feed events).1 := by
  induction events using List.reverseRecOn with
  | nil => exact ending_start builders
  | append_singleton events event ih =>
    rw [feed_concat]
    generalize ((start builders).feed events).1 = before at ih
    have takes := takes_emit before event
    have appends := appends_emit before event
    cases refusal : builders.refusal? event with
    | none => exact ih.taken refusal (takes.builders.trans ih.table) appends
    | some error =>
      have refused : (builders.refusal? event).isSome := by rw [refusal]; rfl
      rw [emit_refused (ih.table ▸ refused)]
      exact ih.refused refused

/-- An emitter with another text before it goes on as it would, and writes the same. -/
theorem emit_rewritten (emitter : Emitter) (event : Event) : ∃ parts, ∀ written,
    ({ emitter with written := written } : Emitter).emit event =
      ({ (emitter.emit event).1 with written := parts ++ written }, (emitter.emit event).2) := by
  refine ⟨(({ emitter with written := [] } : Emitter).emit event).1.written, fun written => ?_⟩
  obtain ⟨builders, own, stage, calls, atOpening, leading, trailing⟩ := emitter
  cases event with
  | opened element =>
    cases atOpening <;> cases argument : calls.head?.getD false <;>
      cases resolved : builders.resolve element.name.uri <;>
      simp [emit, enter, separate, endLine, write, depth, argument, resolved]
  | closed element => cases calls <;> simp [emit, leave, write]
  | comment entry =>
    cases calls with
    | nil => cases stage <;> simp [emit, remark, depth]
    | cons argument calls =>
      cases atOpening <;> cases argument <;> simp [emit, remark, separate, endLine, write, depth]

/-- Two emitters, the second with more text, by the commas that refused openings have left. -/
structure Beside (builders : Builders) (events : List Event) (clean fed : Emitter) : Prop where
  frame : fed = { clean with written := fed.written }
  same : ¬ builders.Interrupted events → fed = clean
  longer : builders.Interrupted events → clean.text.length < fed.text.length

theorem Beside.stage {builders : Builders} {events : List Event} {clean fed : Emitter}
    (beside : Beside builders events clean fed) : fed.stage = clean.stage := by
  rw [beside.frame]

theorem Beside.atOpening {builders : Builders} {events : List Event} {clean fed : Emitter}
    (beside : Beside builders events clean fed) : fed.atOpening = clean.atOpening := by
  rw [beside.frame]

theorem Beside.taken {builders : Builders} {events : List Event} {event : Event}
    {clean fed : Emitter} (beside : Beside builders events clean fed)
    (taken : builders.refusal? event = none) :
    Beside builders (events ++ [event]) (clean.emit event).1 (fed.emit event).1 := by
  obtain ⟨parts, rewritten⟩ := emit_rewritten clean event
  have fedStep := congrArg Prod.fst (rewritten fed.written)
  rw [← beside.frame] at fedStep
  have cleanStep : (clean.emit event).1 = _ := congrArg Prod.fst (rewritten clean.written)
  have interrupted : builders.Interrupted (events ++ [event]) ↔ builders.Interrupted events := by
    simp [Builders.interrupted_concat, taken]
  refine ⟨?_, ?_, ?_⟩
  · rw [fedStep]
  · intro undisturbed
    rw [beside.same (mt interrupted.mpr undisturbed)]
  · intro disturbed
    have longer := beside.longer (interrupted.mp disturbed)
    rw [fedStep, cleanStep]
    simp only [text, List.reverse_append, List.flatten_append, List.length_append] at longer ⊢
    omega

theorem Beside.refused {builders : Builders} {events : List Event} {event : Event}
    {clean fed : Emitter} (beside : Beside builders events clean fed)
    (ending : Ending builders events fed) (refused : (builders.refusal? event).isSome) :
    Beside builders (events ++ [event]) clean (fed.emit event).1 := by
  rw [emit_refused (ending.table ▸ refused)]
  have interrupted : builders.Interrupted (events ++ [event]) ↔
      builders.Interrupted events ∨ builders.AwaitsComma events := by
    simp [Builders.interrupted_concat, refused]
  refine ⟨?_, ?_, ?_⟩
  · rw [separate_eq, beside.frame]
  · intro undisturbed
    rw [interrupted, not_or, ending.awaits] at undisturbed
    rw [← beside.same undisturbed.1, separate, if_neg undisturbed.2]
  · intro disturbed
    rw [text_separate, List.length_append]
    by_cases earlier : builders.Interrupted events
    · have longer := beside.longer earlier
      omega
    · have awaits := ending.awaits.mp ((interrupted.mp disturbed).resolve_left earlier)
      rw [awaits, beside.same earlier]
      exact Nat.lt_succ_self _

theorem beside_feed (builders : Builders) (events : List Event) :
    Beside builders events ((start builders).feed (builders.accepted events)).1
      ((start builders).feed events).1 := by
  induction events using List.reverseRecOn with
  | nil =>
    refine ⟨rfl, fun _ => rfl, ?_⟩
    rintro ⟨before, event, after, split, -⟩
    simp at split
  | append_singleton events event ih =>
    have ending := ending_feed builders events
    rw [feed_concat]
    cases refusal : builders.refusal? event with
    | none =>
      rw [Builders.accepted_concat_taken refusal, feed_concat]
      exact ih.taken refusal
    | some error =>
      have refused : (builders.refusal? event).isSome := by rw [refusal]; rfl
      rw [Builders.accepted_concat_refused refused]
      exact ih.refused ending refused

theorem Beside.text_eq {builders : Builders} {events : List Event} {clean fed : Emitter}
    (beside : Beside builders events clean fed) :
    fed.text = clean.text ↔ ¬ builders.Interrupted events := by
  constructor
  · intro same disturbed
    have longer := beside.longer disturbed
    rw [same] at longer
    exact Nat.lt_irrefl _ longer
  · intro undisturbed
    rw [beside.same undisturbed]

/-- The text of the call, with its last line ended. -/
def body (emitter : Emitter) : List Char := dropComma emitter.endLine.text

theorem finish_inj {clean fed : Emitter} (frame : fed = { clean with written := fed.written })
    (opened : clean.stage ≠ .beforeRoot) : fed.finish = clean.finish ↔ fed.body = clean.body := by
  have stage : fed.stage = clean.stage := by rw [frame]
  have leading : fed.leading = clean.leading := by rw [frame]
  have trailing : fed.trailing = clean.trailing := by rw [frame]
  unfold finish
  rw [stage, leading, trailing]
  cases at_ : clean.stage with
  | beforeRoot => exact absurd at_ opened
  | inTree | afterRoot =>
    simp only [Except.ok.injEq, List.append_cancel_right_eq]
    rfl

theorem dropComma_lineFeed {text : List Char} (bare : text.getLast? ≠ some ',') :
    dropComma (text ++ ['\n']) = text ++ ['\n'] := by
  obtain rfl | ⟨front, last, rfl⟩ := text.eq_nil_or_concat
  · rfl
  · have other : last ≠ ',' := by simpa using bare
    simp [dropComma, other]

theorem body_of_opening {emitter : Emitter} (opening : emitter.atOpening = true)
    (bare : emitter.text.getLast? ≠ some ',') : emitter.body = emitter.text ++ ['\n'] := by
  have ended : emitter.endLine.text = emitter.text ++ ['\n'] := by
    rw [endLine, if_pos opening]
    exact text_write emitter ['\n']
  rw [body, ended, dropComma_lineFeed bare]

theorem body_of_comma {emitter : Emitter} {front : List Char} (opening : emitter.atOpening = true)
    (text : emitter.text = front ++ [',']) : emitter.body = front ++ ['\n'] := by
  have ended : emitter.endLine.text = front ++ [',', '\n'] := by
    rw [endLine, if_pos opening]
    refine (text_write emitter ['\n']).trans ?_
    rw [text, List.append_assoc]
    rfl
  rw [body, ended, dropComma_append]

theorem body_of_line {emitter : Emitter} {lines : List Char} (closed : emitter.atOpening = false)
    (text : emitter.text = lines ++ [',', '\n']) : emitter.body = lines ++ ['\n'] := by
  have ended : emitter.endLine = emitter := by
    rw [endLine, closed]
    rfl
  rw [body, ended, text, dropComma_append]

theorem not_endsRefused_accepted (builders : Builders) (events : List Event) :
    ¬ builders.EndsRefused (builders.accepted events) := by
  rintro ⟨event, last, refused⟩
  have taken := (List.mem_filter.mp (List.mem_of_getLast? last)).2
  rw [Option.isNone_iff_eq_none] at taken
  simp [taken] at refused

/-- An interruption comes behind an opening that was taken. -/
theorem begun_of_interrupted {builders : Builders} {events : List Event}
    (interrupted : builders.Interrupted events) :
    ((start builders).feed events).1.stage ≠ .beforeRoot := by
  obtain ⟨before, event, after, split, -, element, last, -⟩ := interrupted
  have account := account_feed (start builders) events (by simp [Consistent, start])
  have taken := List.mem_filter.mp (List.mem_of_getLast? last)
  intro begun
  refine (account.beforeRoot.mp begun).2 ⟨element, ?_⟩
  rw [account.answers, List.mem_map]
  refine ⟨.opened element, by simp [split, taken.1], ?_⟩
  exact congrArg _ (Option.isNone_iff_eq_none.mp taken.2)

/-- Outside an open line both texts end in a comma and a line feed, and on one neither in a comma. -/
theorem body_inj {builders : Builders} {events events' : List Event} {clean fed : Emitter}
    (beside : Beside builders events clean fed) (begun : clean.stage ≠ .beforeRoot)
    (ending : Ending builders events fed) (ending' : Ending builders events' clean)
    (bare : fed.atOpening = true → fed.text.getLast? ≠ some ',')
    (bare' : clean.atOpening = true → clean.text.getLast? ≠ some ',') :
    fed.body = clean.body ↔ fed.text = clean.text := by
  cases opening : clean.atOpening with
  | true =>
    have opening' := beside.atOpening.trans opening
    rw [body_of_opening opening' (bare opening'), body_of_opening opening (bare' opening),
      List.append_left_inj]
  | false =>
    have opening' := beside.atOpening.trans opening
    obtain ⟨lines, text⟩ := ending.elsewhere opening' (beside.stage ▸ begun)
    obtain ⟨lines', text'⟩ := ending'.elsewhere opening begun
    rw [body_of_line opening' text, body_of_line opening text', text, text', List.append_left_inj,
      List.append_left_inj]

theorem bare_accepted {builders : Builders} {events : List Event} {clean : Emitter}
    (ending : Ending builders (builders.accepted events) clean) (opening : clean.atOpening = true) :
    clean.text.getLast? ≠ some ',' := by
  intro comma
  exact not_endsRefused_accepted _ _ ((ending.atOpening opening).mp comma).2

/-- A comma that the last event has left is not in the body. -/
theorem body_concat_comma {builders : Builders} {events : List Event} {event : Event}
    (refused : (builders.refusal? event).isSome) (awaits : builders.AwaitsComma events) :
    ((start builders).feed (events ++ [event])).1.body =
        ((start builders).feed (builders.accepted (events ++ [event]))).1.body ↔
      ¬ builders.Interrupted events := by
  have beside := beside_feed builders events
  have ending := ending_feed builders events
  have ending' := ending_feed builders (builders.accepted events)
  have fed : ((start builders).feed (events ++ [event])).1 =
      ((start builders).feed events).1.separate := by
    rw [feed_concat, emit_refused (by rw [ending.table]; exact refused)]
  have line := ending.awaits.mp awaits
  have comma : ((start builders).feed events).1.separate.text =
      ((start builders).feed events).1.text ++ [','] := by
    rw [text_separate, line]
    rfl
  have opening := (Bool.and_eq_true _ _ ▸ line).1
  have opening' := beside.atOpening.symm.trans opening
  have stays : ((start builders).feed events).1.separate.atOpening = true := by
    rw [separate_eq]
    exact opening
  rw [fed, body_of_comma stays comma, Builders.accepted_concat_refused refused,
    body_of_opening opening' (bare_accepted ending' opening'), List.append_left_inj]
  exact beside.text_eq

/-- Only a comma that the very last event has left is taken away when the script is finished. -/
theorem finish_concat (builders : Builders) (events : List Event) (event : Event) :
    ((start builders).feed (events ++ [event])).1.finish =
        ((start builders).feed (builders.accepted (events ++ [event]))).1.finish ↔
      ¬ builders.Interrupted events := by
  have concat := @Builders.interrupted_concat builders events event
  have beside := beside_feed builders (events ++ [event])
  have ending := ending_feed builders (events ++ [event])
  have ending' := ending_feed builders (builders.accepted (events ++ [event]))
  by_cases before : ((start builders).feed (events ++ [event])).1.stage = .beforeRoot
  · have undisturbed : ¬ builders.Interrupted (events ++ [event]) :=
      fun interrupted => begun_of_interrupted interrupted before
    rw [beside.same undisturbed]
    simpa using mt (concat.mpr ∘ .inl) undisturbed
  have begun := beside.stage ▸ before
  rw [finish_inj beside.frame begun]
  by_cases left : (builders.refusal? event).isSome ∧ builders.AwaitsComma events
  · exact body_concat_comma left.1 left.2
  · have bare : ((start builders).feed (events ++ [event])).1.atOpening = true →
        ((start builders).feed (events ++ [event])).1.text.getLast? ≠ some ',' := by
      intro opening ends
      obtain ⟨awaits, last⟩ := (ending.atOpening opening).mp ends
      rw [Builders.endsRefused_concat] at last
      exact left ⟨last, (Builders.awaitsComma_concat_refused last).mp awaits⟩
    rw [body_inj beside begun ending ending' bare (bare_accepted ending'), beside.text_eq, concat]
    simp [left]

/-- An emitter that has been fed events, and one that was fed only those that are not refused. -/
structure Undone (builders : Builders) (events : List Event)
    (fed clean : Emitter × List (Event × Option Error)) : Prop where
  removed : builders.accepted events = (fed.2.filter (·.2.isNone)).map (·.1)
  frame : fed.1 = { clean.1 with written := fed.1.written }
  depth : fed.1.depth = clean.1.depth
  answers : clean.2 = fed.2.filter (·.2.isNone)
  text : fed.1.text = clean.1.text ↔ ¬ builders.Interrupted events
  finish : fed.1.finish = clean.1.finish ↔ ¬ builders.Interrupted events.dropLast

/-- Refused events change neither stage nor depth, nor the comments kept, nor later answers. The
script stays the same exactly if no event but the last was refused on the line of an opening with a
literal, where it leaves a comma behind. -/
theorem undone_feed (builders : Builders) (events : List Event) :
    Undone builders events ((start builders).feed events)
      ((start builders).feed (builders.accepted events)) := by
  have beside := beside_feed builders events
  have consistent : (start builders).Consistent := by simp [Consistent, start]
  have answers := (account_feed _ events consistent).answers
  refine ⟨?_, beside.frame, ?_, ?_, beside.text_eq, ?_⟩
  · rw [answers, List.filter_map, List.map_map, Builders.accepted]
    exact (List.map_id _).symm
  · rw [beside.frame]
    rfl
  · rw [answers, (account_feed _ _ consistent).answers, List.filter_map, Builders.accepted]
    rfl
  · obtain rfl | ⟨earlier, event, rfl⟩ := events.eq_nil_or_concat
    · have quiet : ¬ builders.Interrupted [] := by
        rintro ⟨before, event, after, split, -⟩
        simp at split
      exact ⟨fun _ => quiet, fun _ => rfl⟩
    · rw [List.concat_eq_append, List.dropLast_concat]
      exact finish_concat builders earlier event

/-- A child that no builder makes, between an opening with text and its first child. -/
example : ((start .standard).feed [.opened ⟨⟨⟨none, "a"⟩, none, [], [], some "x", none⟩, .empty⟩,
      .opened ⟨⟨⟨some "urn:x", "b"⟩, none, [], [], none, none⟩, .empty⟩,
      .opened ⟨⟨⟨none, "c"⟩, none, [], [], none, none⟩, .empty⟩]).1.text =
    preamble .standard ++ "KML.a('x',,\n  KML.c(".toList := by
  decide +kernel

end Emitter
end KeyholeMarkup.Script

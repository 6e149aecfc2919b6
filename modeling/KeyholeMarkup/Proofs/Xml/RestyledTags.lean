import KeyholeMarkup.Proofs.Xml.LineEnds
import KeyholeMarkup.Proofs.Xml.Provenance
import KeyholeMarkup.Proofs.Xml.TokenText
import Mathlib.Data.List.Forall2

/-! Tags with other line ends. They have the same name and the same attributes, with these line ends
in the values as they are written. -/
namespace KeyholeMarkup.Xml
open KeyholeMarkup.Text

/-- An attribute and the same one with other line ends. -/
structure WrittenAttribute.Restyled (ends : List Char) (first second : WrittenAttribute) : Prop where
  name : second.name = first.name
  value : second.value = withLineEnds ends first.value
  clean : '\r' ∉ first.value

namespace AttributeList

/-- An attribute list and the same one with other line ends, read to the same place. -/
structure Restyled (ends : List Char) (first second : State) : Prop where
  mode : second.mode = first.mode
  name : second.name = first.name
  value : second.value = withLineEnds ends.reverse first.value
  clean : '\r' ∉ first.value
  quoted : ∀ quote, first.mode = .value quote → quote = '"' ∨ quote = '\''
  finished : List.Forall₂ (WrittenAttribute.Restyled ends) first.finished second.finished
  fault : second.fault.isSome = first.fault.isSome

/-- The mode after a character that begins or ends a line. -/
def Mode.afterBreak : Mode → Mode
  | .name => .afterName
  | mode => mode

/-- What a value at hand gets of some blanks. -/
def Mode.keeping : Mode → List Char → List Char
  | .value _, part => part
  | _, _ => []

variable {ends text : List Char} {first second state : State} {unique : Bool} {c : Char}

theorem Mode.afterBreak_afterBreak (mode : Mode) :
    mode.afterBreak.afterBreak = mode.afterBreak := by
  cases mode <;> rfl

theorem Mode.eq_value_of_afterBreak {mode : Mode} {quote : Char}
    (same : mode.afterBreak = .value quote) : mode = .value quote := by
  cases mode with
  | name => cases same
  | _ => exact same

theorem Mode.keeping_nil (mode : Mode) : mode.keeping [] = [] := by
  cases mode <;> rfl

theorem Mode.keeping_append (mode : Mode) (before after : List Char) :
    mode.keeping (before ++ after) = mode.keeping before ++ mode.keeping after := by
  cases mode <;> rfl

theorem Mode.keeping_afterBreak (mode : Mode) (part : List Char) :
    mode.afterBreak.keeping part = mode.keeping part := by
  cases mode <;> rfl

theorem advance_break (isBreak : c = '\n' ∨ c = '\r')
    (quoted : ∀ quote, state.mode = .value quote → quote = '"' ∨ quote = '\'') :
    advance unique state c = { state with
      mode := state.mode.afterBreak
      value := state.mode.keeping [c] ++ state.value } := by
  have space : isSpace c = true := by obtain rfl | rfl := isBreak <;> rfl
  have apart : c ≠ '=' ∧ c ≠ '"' ∧ c ≠ '\'' := by obtain rfl | rfl := isBreak <;> decide
  obtain ⟨mode, name, position, value, offset, finished, fault⟩ := state
  cases mode with
  | value quote =>
    have goesOn : c ≠ quote := by
      obtain rfl | rfl := quoted quote rfl
      · exact apart.2.1
      · exact apart.2.2
    simp [advance, goesOn, Mode.afterBreak, Mode.keeping]
  | name => simp [advance, apart.1, space, Mode.afterBreak, Mode.keeping]
  | _ => simp [advance, space, Mode.afterBreak, Mode.keeping]

/-- Line ends after the first one only grow a value that is at hand. -/
theorem foldl_breaks (each : ∀ c ∈ text, c = '\n' ∨ c = '\r') (faultless : state.fault = none)
    (quoted : ∀ quote, state.mode = .value quote → quote = '"' ∨ quote = '\'')
    (settled : state.mode.afterBreak = state.mode) :
    ∃ offset, text.foldl (step unique) state =
      { state with value := state.mode.keeping text.reverse ++ state.value, offset } := by
  induction text generalizing state with
  | nil => exact ⟨state.offset, by rw [List.reverse_nil, Mode.keeping_nil]; rfl⟩
  | cons c rest ih =>
    let next := { state with
      value := state.mode.keeping [c] ++ state.value
      offset := state.offset + c.utf8Size }
    have stepped : step unique state c = next := by
      simp only [step, faultless, advance_break (each c List.mem_cons_self) quoted, settled, next]
    obtain ⟨offset, ran⟩ := @ih next (fun d member => each d (List.mem_cons_of_mem c member))
      faultless quoted settled
    refine ⟨offset, ?_⟩
    rw [List.foldl_cons, stepped, ran, List.reverse_cons, Mode.keeping_append, List.append_assoc]

theorem find?_eq_none_iff {firsts seconds : List WrittenAttribute}
    (entries : List.Forall₂ (WrittenAttribute.Restyled ends) firsts seconds) (name : List Char) :
    seconds.find? (·.name == name) = none ↔ firsts.find? (·.name == name) = none := by
  induction entries with
  | nil => exact Iff.rfl
  | cons entry _ ih =>
    rw [List.find?_cons, List.find?_cons, entry.name]
    split
    · simp
    · exact ih

namespace Restyled

variable (restyled : Restyled ends first second)
include restyled

theorem shift (offset place : Nat) :
    Restyled ends { first with offset } { second with offset := place } :=
  ⟨restyled.mode, restyled.name, restyled.value, restyled.clean, restyled.quoted,
    restyled.finished, restyled.fault⟩

theorem enter {mode : Mode} (outside : ∀ quote, mode = .value quote → quote = '"' ∨ quote = '\'') :
    Restyled ends { first with mode } { second with mode } :=
  ⟨rfl, restyled.name, restyled.value, restyled.clean, outside, restyled.finished, restyled.fault⟩

theorem fail (fault faultToo : AttributeFault) :
    Restyled ends { first with fault := some fault } { second with fault := some faultToo } :=
  ⟨restyled.mode, restyled.name, restyled.value, restyled.clean, restyled.quoted,
    restyled.finished, rfl⟩

theorem equals : Restyled ends (equals unique first) (equals unique second) := by
  have repeated := find?_eq_none_iff restyled.finished first.name.reverse
  have enters : ∀ quote, Mode.afterEquals = .value quote → quote = '"' ∨ quote = '\'' := nofun
  have name : second.name.reverse = first.name.reverse := by rw [restyled.name]
  unfold AttributeList.equals
  cases unique with
  | false => exact restyled.enter enters
  | true =>
    simp only [if_true, name]
    cases found : first.finished.find? (·.name == first.name.reverse) with
    | none =>
      rw [repeated.mpr found]
      exact restyled.enter enters
    | some entry =>
      obtain ⟨other, foundToo⟩ := Option.ne_none_iff_exists'.mp
        (repeated.not.mpr (found ▸ Option.some_ne_none entry))
      rw [foundToo]
      exact restyled.fail _ _

theorem finishValue :
    Restyled ends
      { first with
        mode := .gap
        finished := ⟨first.name.reverse, first.value.reverse, first.position⟩ :: first.finished }
      { second with
        mode := .gap
        finished := ⟨second.name.reverse, second.value.reverse, second.position⟩ ::
          second.finished } := by
  refine ⟨rfl, restyled.name, restyled.value, restyled.clean, nofun, .cons ?_ restyled.finished,
    restyled.fault⟩
  refine ⟨by rw [restyled.name], ?_, by simpa using restyled.clean⟩
  rw [restyled.value, reverse_withLineEnds, List.reverse_reverse]

theorem advance (notFeed : c ≠ '\n') (notReturn : c ≠ '\r') :
    Restyled ends (advance unique first c) (advance unique second c) := by
  unfold AttributeList.advance
  rw [restyled.mode]
  cases mode : first.mode with
  | gap =>
    simp only
    split
    · exact restyled
    · exact ⟨rfl, rfl, rfl, by simp, nofun, restyled.finished, restyled.fault⟩
  | name =>
    simp only
    split
    · exact restyled.equals
    split
    · exact restyled.enter nofun
    · exact ⟨rfl, congrArg (c :: ·) restyled.name, restyled.value, restyled.clean, nofun,
        restyled.finished, restyled.fault⟩
  | afterName =>
    simp only
    split
    · exact restyled
    split
    · exact restyled.equals
    · exact ⟨rfl, restyled.name, restyled.value, restyled.clean, nofun, restyled.finished, rfl⟩
  | afterEquals =>
    simp only
    split
    · exact restyled
    split
    · rename_i opens
      refine restyled.enter ?_
      rintro _ ⟨⟩
      simpa using opens
    · exact ⟨rfl, restyled.name, restyled.value, restyled.clean, nofun, restyled.finished, rfl⟩
  | value quote =>
    simp only
    split
    · exact restyled.finishValue
    · refine ⟨rfl, restyled.name, ?_, ?_, fun quote same => restyled.quoted quote (mode.trans same),
        restyled.finished, restyled.fault⟩
      · simp only [restyled.value, withLineEnds_cons notFeed]
      · simp [restyled.clean, Ne.symm notReturn]

theorem exists_fault {found : AttributeFault} (fault : first.fault = some found) :
    ∃ other, second.fault = some other :=
  Option.isSome_iff_exists.mp (restyled.fault.trans (by rw [fault, Option.isSome_some]))

theorem fault_eq_none_iff : second.fault = none ↔ first.fault = none := by
  rw [← Option.not_isSome_iff_eq_none, restyled.fault, Option.not_isSome_iff_eq_none]

theorem step (unique : Bool) (notFeed : c ≠ '\n') (notReturn : c ≠ '\r') :
    Restyled ends (step unique first c) (step unique second c) := by
  unfold AttributeList.step
  cases fault : first.fault with
  | none =>
    rw [restyled.fault_eq_none_iff.mpr fault]
    exact (restyled.advance notFeed notReturn).shift _ _
  | some found =>
    obtain ⟨foundToo, faultToo⟩ := restyled.exists_fault fault
    rw [faultToo]
    exact restyled

/-- Where one reads a line feed, the other reads its line end. -/
theorem lineEnd (unique : Bool) (breaks : IsBreak ends) :
    Restyled ends (AttributeList.step unique first '\n')
      (ends.foldl (AttributeList.step unique) second) := by
  cases fault : first.fault with
  | some found =>
    obtain ⟨foundToo, faultToo⟩ := restyled.exists_fault fault
    rw [foldl_of_fault faultToo, AttributeList.step, fault]
    exact restyled
  | none =>
    have faultlessToo := restyled.fault_eq_none_iff.mpr fault
    have quotedToo := fun quote same => restyled.quoted quote (restyled.mode.symm.trans same)
    obtain ⟨c, more, rfl⟩ := List.exists_cons_of_ne_nil breaks.nonempty
    -- the first character of the line end may end a name, the others stay in the mode after it
    let next := { second with
      mode := second.mode.afterBreak
      value := second.mode.keeping [c] ++ second.value
      offset := second.offset + c.utf8Size }
    have stepped : AttributeList.step unique second c = next := by
      simp only [AttributeList.step, faultlessToo,
        advance_break (breaks.each c List.mem_cons_self) quotedToo, next]
    obtain ⟨offset, ran⟩ := @foldl_breaks more next unique
      (fun d member => breaks.each d (List.mem_cons_of_mem c member)) faultlessToo
      (fun quote same => quotedToo quote (Mode.eq_value_of_afterBreak same))
      second.mode.afterBreak_afterBreak
    rw [List.foldl_cons, stepped, ran]
    simp only [AttributeList.step, fault, advance_break (.inl rfl) restyled.quoted]
    refine ⟨congrArg Mode.afterBreak restyled.mode, restyled.name, ?_, ?_,
      fun quote same => restyled.quoted quote (Mode.eq_value_of_afterBreak same), restyled.finished,
      restyled.fault.trans (by rw [fault])⟩
    · simp only [next, Mode.keeping_afterBreak, restyled.mode, restyled.value]
      cases first.mode with
      | value quote => simp [Mode.keeping]
      | _ => rfl
    · cases first.mode with
      | value quote => simp [Mode.keeping, restyled.clean]
      | _ => exact restyled.clean

theorem complete : Restyled ends (complete first) (complete second) := by
  unfold AttributeList.complete
  cases fault : first.fault with
  | some found =>
    obtain ⟨foundToo, faultToo⟩ := restyled.exists_fault fault
    rw [faultToo]
    exact restyled
  | none =>
    rw [restyled.fault_eq_none_iff.mpr fault, restyled.mode]
    cases mode : first.mode with
    | gap => exact restyled
    | value quote =>
      exact ⟨rfl, restyled.name, restyled.value, restyled.clean,
        fun quote same => restyled.quoted quote (mode.trans same), restyled.finished, rfl⟩
    | _ => exact ⟨rfl, restyled.name, restyled.value, restyled.clean, nofun, restyled.finished, rfl⟩

end Restyled

end AttributeList

theorem isSpace_tagName (content : List Char) : ∀ c ∈ tagName content, isSpace c = false := by
  intro c member
  simpa using List.all_eq_true.mp List.all_takeWhile c member

section
variable {ends content : List Char} (breaks : IsBreak ends)
include breaks

theorem tagName_withLineEnds (content : List Char) :
    tagName (withLineEnds ends content) = tagName content := by
  have whole : '\n' ∉ tagName content := fun member =>
    absurd (isSpace_tagName content '\n' member) (by decide)
  rw [tagName, takeWhile_withLineEnds breaks (by decide)]
  exact withLineEnds_eq_self whole

/-- The attributes of a tag are the same whatever its line ends are, up to the same place. -/
theorem restyled_tagAttributes (unique : Bool) (clean : '\r' ∉ content) :
    List.Forall₂ (WrittenAttribute.Restyled ends) (tagAttributes unique content).attributes
      (tagAttributes unique (withLineEnds ends content)).attributes ∧
    (tagAttributes unique (withLineEnds ends content)).fault.isSome =
      (tagAttributes unique content).fault.isSome := by
  have initial (offset place : Nat) : AttributeList.Restyled ends
      ⟨.gap, [], 0, [], offset, [], none⟩ ⟨.gap, [], 0, [], place, [], none⟩ :=
    ⟨rfl, rfl, rfl, by simp, nofun, .nil, rfl⟩
  have cleanRest : '\r' ∉ content.dropWhile (!isSpace ·) := fun member =>
    clean ((List.dropWhile_sublist _).subset member)
  unfold tagAttributes AttributeList.read
  rw [dropWhile_withLineEnds breaks (by decide)]
  have read := foldl_withLineEnds cleanRest
    (initial (byteLength (tagName content)) (byteLength (tagName (withLineEnds ends content))))
    (fun held => held.lineEnd unique breaks) fun held => held.step unique
  exact ⟨List.rel_reverse read.complete.finished, read.complete.fault⟩

end

/-- No declaration in a tag goes on over the end of a line. -/
def DeclaresInLine (content : List Char) : Prop :=
  ∀ entry ∈ (tagAttributes false content).attributes, entry.isDeclaration → '\n' ∉ entry.value

/-- A text whose tags have no such declaration. -/
def TextDeclaresInLine (text : String) : Prop :=
  ∀ content ∈ (Lexemes.ofText (withoutMark text.toList)).lexemes.filterMap (·.token.tagContent?),
    DeclaresInLine content

instance : DecidablePred DeclaresInLine := fun content =>
  List.decidableBAll _ (tagAttributes false content).attributes

instance : DecidablePred TextDeclaresInLine := fun text =>
  inferInstanceAs (Decidable (∀ content ∈ (Lexemes.ofText (withoutMark
    text.toList)).lexemes.filterMap (·.token.tagContent?), DeclaresInLine content))

example : TextDeclaresInLine "<a b='\n' xmlns='u'/>" ∧ ¬ TextDeclaresInLine "<a xmlns='u\n'/>" := by
  decide

namespace Scope

theorem declare_restyled {ends : List Char} {first second : WrittenAttribute} (scope : Scope)
    (entry : first.Restyled ends second) (inLine : first.isDeclaration → '\n' ∉ first.value) :
    scope.declare second = scope.declare first := by
  cases declares : first.isDeclaration with
  | true =>
    have value : second.value = first.value :=
      entry.value.trans (withLineEnds_eq_self (inLine declares))
    unfold declare
    rw [entry.name, value]
  | false =>
    have other : declaredPrefix? first.name = none := by
      simpa [WrittenAttribute.isDeclaration] using declares
    unfold declare
    rw [entry.name, other]

theorem foldlM_declare_restyled {ends : List Char} {firsts seconds : List WrittenAttribute}
    (scope : Scope) (entries : List.Forall₂ (WrittenAttribute.Restyled ends) firsts seconds)
    (inLine : ∀ entry ∈ firsts, entry.isDeclaration → '\n' ∉ entry.value) :
    seconds.foldlM declare scope = firsts.foldlM declare scope := by
  induction entries generalizing scope with
  | nil => rfl
  | cons entry _ ih =>
    rw [List.foldlM_cons, List.foldlM_cons,
      scope.declare_restyled entry (inLine _ List.mem_cons_self)]
    exact bind_congr fun inner => ih inner fun other member =>
      inLine other (List.mem_cons_of_mem _ member)

/-- The bindings in scope do not depend on line ends between declarations. -/
theorem enter_withLineEnds {ends content : List Char} (scope : Scope) (breaks : IsBreak ends)
    (clean : '\r' ∉ content) (inLine : DeclaresInLine content) :
    scope.enter (withLineEnds ends content) = scope.enter content :=
  scope.foldlM_declare_restyled (restyled_tagAttributes breaks false clean).1 inLine

end Scope
end KeyholeMarkup.Xml

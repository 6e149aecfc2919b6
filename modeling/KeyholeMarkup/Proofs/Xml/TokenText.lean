import KeyholeMarkup.Proofs.Xml.Positions
import KeyholeMarkup.Xml.AttributeList
import Mathlib.Data.List.Infix
import Mathlib.Data.List.Nodup

/-! What the texts of tokens hold. A comment does not hold its own end, and a tag that is read
without a fault has every attribute once. -/
namespace KeyholeMarkup.Xml

namespace Lexer

/-- The comments read so far hold no `-->`, and neither does the one at hand. -/
structure Commented (lexer : Lexer) : Prop where
  markup : lexer.mode = .markup → lexer.raw = []
  declaration : lexer.mode = .declaration → lexer.raw = ['!']
  comment : lexer.mode = .comment → ∀ rest, lexer.raw.reverse = '!' :: '-' :: '-' :: rest →
    ¬ ['-', '-', '>'] <:+: rest
  finished : ∀ lexeme ∈ lexer.finished, ∀ raw, lexeme.token = .comment raw →
    ¬ ['-', '-', '>'] <:+: raw

variable {lexer after : Lexer} {c : Char}

theorem finishes_text (lexer : Lexer) (raw : List Char) : lexer.Finishes (.text raw) := nofun

theorem Commented.add (commented : lexer.Commented) {token : Token}
    (finishes : lexer.Finishes token) (stop : Nat) :
    ∀ lexeme ∈ ⟨token, lexer.start, stop⟩ :: lexer.finished, ∀ raw, lexeme.token = .comment raw →
      ¬ ['-', '-', '>'] <:+: raw := by
  refine List.forall_mem_cons.mpr ⟨fun raw same inside => ?_, commented.finished⟩
  obtain ⟨mode, rest, held, rfl⟩ := finishes raw same
  exact commented.comment mode rest held (inside.trans (List.take_prefix _ _).isInfix)

/-- A comment goes on until its end comes, so that only the last character can complete it. -/
theorem Commented.goesOn (commented : lexer.Commented) (mode : lexer.mode = .comment)
    (goesOn : ¬ (c = '>' ∧ lexer.raw.length > 4 ∧ lexer.raw.take 2 = ['-', '-']))
    {rest : List Char} (held : lexer.raw.reverse ++ [c] = '!' :: '-' :: '-' :: rest) :
    ¬ ['-', '-', '>'] <:+: rest := by
  intro inside
  rcases List.eq_nil_or_concat rest with rfl | ⟨before, last, rfl⟩
  · exact absurd inside.length_le (by simp)
  have split : lexer.raw.reverse ++ [c] = ('!' :: '-' :: '-' :: before) ++ [last] := by
    simpa using held
  obtain ⟨heldBefore, same⟩ := List.append_inj' split rfl
  obtain rfl : c = last := by simpa using same
  rw [List.concat_eq_append, List.infix_concat_iff] at inside
  rcases inside with ends | earlier
  · -- The dashes before the last character would have ended the comment.
    obtain ⟨first, whole⟩ := ends
    have closing : first ++ ['-', '-'] ++ ['>'] = before ++ [c] := by simpa using whole
    obtain ⟨rfl, last⟩ := List.append_inj' closing rfl
    have raw : lexer.raw = '-' :: '-' :: (first.reverse ++ ['-', '-', '!']) := by
      rw [← List.reverse_reverse lexer.raw, heldBefore]
      simp
    exact goesOn ⟨by simpa using last.symm, by simp [raw], by simp [raw]⟩
  · exact commented.comment mode before heldBefore earlier

theorem Commented.advanced (commented : lexer.Commented) (advanced : lexer.Advanced c after) :
    after.Commented := by
  cases advanced with
  | keep keeps =>
    refine ⟨fun same => absurd same keeps.markup, fun same => ?_, fun same rest held => ?_,
      commented.finished⟩
    · obtain ⟨mode, rfl⟩ := keeps.declaration same
      rw [Lexer.keep, commented.markup mode]
    · rw [Lexer.keep, List.reverse_cons] at held
      rcases keeps.comment same with ⟨mode, -⟩ | ⟨mode, goesOn⟩
      · simp [commented.declaration mode] at held
      · exact commented.goesOn mode goesOn held
  | finish finishes =>
    refine ⟨?_, ?_, ?_, commented.add finishes _⟩ <;> rintro ⟨⟩
  | beginMarkup =>
    refine ⟨fun _ => rfl, by rintro ⟨⟩, by rintro ⟨⟩, ?_⟩
    unfold Lexer.beginMarkup
    split
    · exact commented.finished
    · exact commented.add (finishes_text lexer _) _
  | fail _ _ =>
    exact ⟨commented.markup, commented.declaration, commented.comment, commented.finished⟩

theorem Commented.step (commented : lexer.Commented) (c : Char) : (lexer.step c).Commented := by
  unfold Lexer.step
  split
  · exact commented
  · exact commented.advanced (advanced_advance lexer c)

theorem Commented.foldl (commented : lexer.Commented) (text : List Char) :
    (text.foldl Lexer.step lexer).Commented := by
  induction text generalizing lexer with
  | nil => exact commented
  | cons c rest ih => exact ih (commented.step c)

theorem Commented.complete (commented : lexer.Commented) :
    ∀ lexeme ∈ lexer.complete.finished, ∀ raw, lexeme.token = .comment raw →
      ¬ ['-', '-', '>'] <:+: raw := by
  unfold Lexer.complete
  split
  · exact commented.finished
  split
  · split
    · exact commented.finished
    · exact commented.add (finishes_text lexer _) _
  all_goals exact commented.finished

end Lexer

/-- Comments hold no `-->`. -/
theorem Lexemes.not_infix_of_comment {text raw : List Char} {start stop : Nat}
    (member : ⟨.comment raw, start, stop⟩ ∈ (ofText text).lexemes) : ¬ ['-', '-', '>'] <:+: raw := by
  have initial : Lexer.initial.Commented := ⟨nofun, nofun, nofun, by simp [Lexer.initial]⟩
  exact (initial.foldl text).complete _ (List.mem_reverse.mp member) raw rfl

namespace AttributeList

/-- The names read so far are distinct, and the name at hand is a new one once its `=` is read. -/
structure Distinct (state : State) : Prop where
  names : (state.finished.map (·.name)).Nodup
  fresh : state.mode = .afterEquals ∨ (∃ quote, state.mode = .value quote) →
    state.name.reverse ∉ state.finished.map (·.name)

variable {state : State} {c : Char}

theorem Distinct.equals (distinct : Distinct state) : Distinct (equals true state) := by
  unfold AttributeList.equals
  simp only [if_true]
  split
  · exact ⟨distinct.names, distinct.fresh⟩
  · rename_i new
    refine ⟨distinct.names, fun _ listed => ?_⟩
    obtain ⟨entry, member, same⟩ := List.mem_map.mp listed
    exact absurd same (by simpa using List.find?_eq_none.mp new entry member)

theorem Distinct.advance (distinct : Distinct state) : Distinct (advance true state c) := by
  unfold AttributeList.advance
  split
  · split
    · exact distinct
    · exact ⟨distinct.names, by simp⟩
  · split
    · exact distinct.equals
    split
    · exact ⟨distinct.names, by simp⟩
    · rename_i mode _ _
      exact ⟨distinct.names, by simp [mode]⟩
  · split
    · exact distinct
    split
    · exact distinct.equals
    · exact ⟨distinct.names, distinct.fresh⟩
  · rename_i mode
    split
    · exact distinct
    split
    · exact ⟨distinct.names, fun _ => distinct.fresh (.inl mode)⟩
    · exact ⟨distinct.names, distinct.fresh⟩
  · rename_i quote mode
    have fresh := distinct.fresh (.inr ⟨quote, mode⟩)
    split
    · exact ⟨List.nodup_cons.mpr ⟨fresh, distinct.names⟩, by simp⟩
    · exact ⟨distinct.names, fun _ => fresh⟩

theorem Distinct.step (distinct : Distinct state) : Distinct (step true state c) := by
  unfold AttributeList.step
  split
  · exact distinct
  · exact ⟨distinct.advance.names, distinct.advance.fresh⟩

theorem Distinct.foldl (distinct : Distinct state) (text : List Char) :
    Distinct (text.foldl (AttributeList.step true) state) := by
  induction text generalizing state with
  | nil => exact distinct
  | cons c rest ih => exact ih distinct.step

theorem foldl_of_fault {unique : Bool} {fault : AttributeFault} (faulty : state.fault = some fault)
    (text : List Char) : text.foldl (step unique) state = state := by
  induction text with
  | nil => rfl
  | cons c rest ih =>
    rw [List.foldl_cons, step, faulty]
    exact ih

theorem equals_eq (faultless : (equals true state).fault = none) :
    equals false state = equals true state := by
  unfold equals at faultless ⊢
  simp only [if_true] at faultless ⊢
  split at faultless
  · contradiction
  · simp

theorem advance_eq (faultless : (advance true state c).fault = none) :
    advance false state c = advance true state c := by
  unfold advance at faultless ⊢
  split at faultless
  · rfl
  · split at faultless
    · rename_i sign
      rw [if_pos sign, if_pos sign]
      exact equals_eq faultless
    · rename_i other
      rw [if_neg other, if_neg other]
  · split at faultless
    · rename_i space
      rw [if_pos space, if_pos space]
    rename_i dense
    rw [if_neg dense, if_neg dense]
    split at faultless
    · rename_i sign
      rw [if_pos sign, if_pos sign]
      exact equals_eq faultless
    · rename_i other
      rw [if_neg other, if_neg other]
  · rfl
  · rfl

/-- Repeated names are the only difference between the two ways of reading. -/
theorem foldl_eq {text : List Char} (faultless : (text.foldl (step true) state).fault = none) :
    text.foldl (step false) state = text.foldl (step true) state := by
  induction text generalizing state with
  | nil => rfl
  | cons c rest ih =>
    rw [List.foldl_cons] at faultless
    have first : step false state c = step true state c := by
      cases fault : (step true state c).fault with
      | some found =>
        rw [foldl_of_fault fault, fault] at faultless
        contradiction
      | none =>
        unfold step at fault ⊢
        split at fault
        · rfl
        · simp only [advance_eq fault]
    rw [List.foldl_cons, List.foldl_cons, first]
    exact ih faultless

theorem finished_complete (state : State) : (complete state).finished = state.finished := by
  unfold complete
  split
  · rfl
  · split <;> rfl

theorem fault_of_complete (faultless : (complete state).fault = none) : state.fault = none := by
  cases fault : state.fault with
  | none => rfl
  | some found =>
    unfold complete at faultless
    simp [fault] at faultless

end AttributeList

/-- No attribute is read twice in a tag. -/
theorem nodup_tagAttributes (content : List Char) :
    ((tagAttributes true content).attributes.map (·.name)).Nodup := by
  have initial (offset : Nat) : AttributeList.Distinct ⟨.gap, [], 0, [], offset, [], none⟩ :=
    ⟨List.nodup_nil, by simp⟩
  unfold tagAttributes AttributeList.read
  simp only [AttributeList.finished_complete, List.map_reverse]
  exact List.nodup_reverse.mpr ((initial _).foldl _).names

/-- Where no attribute is repeated and no other fault is found, looking for repetitions makes no
difference. -/
theorem tagAttributes_false {content : List Char}
    (faultless : (tagAttributes true content).fault = none) :
    tagAttributes false content = tagAttributes true content := by
  unfold tagAttributes AttributeList.read at faultless ⊢
  simp only at faultless ⊢
  rw [AttributeList.foldl_eq (AttributeList.fault_of_complete faultless)]

end KeyholeMarkup.Xml

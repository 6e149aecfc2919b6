import KeyholeMarkup.Proofs.Xml.Positions
import Mathlib.Data.List.Infix

/-! Tokens in their text. What stands between the positions of a token is the token as it is
written. -/
namespace KeyholeMarkup.Text

/-- A piece that takes up the bytes of a text between two offsets. -/
def Covers (text : List Char) (start stop : Nat) (piece : List Char) : Prop :=
  ∃ before after, text = before ++ piece ++ after ∧ byteLength before = start ∧
    start + byteLength piece = stop

section
variable {text piece : List Char} {start stop : Nat}

theorem Covers.append (covers : Covers text start stop piece) (more : List Char) :
    Covers (text ++ more) start stop piece := by
  obtain ⟨before, after, whole, begins, ends⟩ := covers
  refine ⟨before, after ++ more, ?_, begins, ends⟩
  rw [whole, List.append_assoc]

theorem Covers.behind (covers : Covers text start stop piece) (mark : List Char) :
    Covers (mark ++ text) (byteLength mark + start) (byteLength mark + stop) piece := by
  obtain ⟨before, after, whole, begins, ends⟩ := covers
  refine ⟨mark ++ before, after, ?_, ?_, ?_⟩
  · simp only [whole, List.append_assoc]
  · rw [byteLength_append, begins]
  · rw [Nat.add_assoc, ends]

theorem Covers.stop_le (covers : Covers text start stop piece) : stop ≤ byteLength text := by
  obtain ⟨before, after, whole, begins, ends⟩ := covers
  rw [whole, byteLength_append, byteLength_append]
  omega

theorem Covers.length_le (covers : Covers text start stop piece) :
    start + piece.length ≤ stop := by
  obtain ⟨before, after, whole, begins, ends⟩ := covers
  have room := length_le_byteLength piece
  omega

/-- Two pieces, one behind the other, with what stands between them. -/
theorem Covers.join {first last : List Char} {later final : Nat}
    (front : Covers text start stop first) (back : Covers text later final last)
    (ordered : stop ≤ later) : ∃ inner, Covers text start final (first ++ inner ++ last) := by
  obtain ⟨before, after, whole, begins, ends⟩ := front
  obtain ⟨earlier, rest, same, begun, ended⟩ := back
  have lengths : byteLength (before ++ first) ≤ byteLength earlier := by
    rw [byteLength_append]
    omega
  have front : before ++ first <+: text := ⟨after, whole.symm⟩
  have back : earlier <+: text := ⟨last ++ rest, by rw [same, List.append_assoc]⟩
  obtain ⟨inner, reached⟩ := prefix_of_byteLength_le front back lengths
  refine ⟨inner, before, rest, ?_, begins, ?_⟩
  · rw [same, ← reached]
    simp only [List.append_assoc]
  · rw [← reached, byteLength_append, byteLength_append] at begun
    rw [byteLength_append, byteLength_append]
    omega

end
end KeyholeMarkup.Text

namespace KeyholeMarkup.Xml
open KeyholeMarkup.Text

/-- A token that stands in a text as its positions say. -/
def Lexeme.StandsIn (text : List Char) (lexeme : Lexeme) : Prop :=
  ∃ piece, lexeme.token.Spelled piece ∧ Covers text lexeme.start lexeme.stop piece

theorem Lexeme.StandsIn.append {text : List Char} {lexeme : Lexeme}
    (stands : lexeme.StandsIn text) (more : List Char) : lexeme.StandsIn (text ++ more) := by
  obtain ⟨piece, spelled, covers⟩ := stands
  exact ⟨piece, spelled, covers.append more⟩

namespace Lexer

/-- What has been read of the token at hand. -/
def held (lexer : Lexer) : List Char :=
  match lexer.mode with
  | .text => lexer.raw.reverse
  | _ => '<' :: lexer.raw.reverse

variable {lexer after : Lexer} {c : Char} {read : List Char}

theorem held_of_text (text : lexer.mode = .text) : lexer.held = lexer.raw.reverse := by
  rw [held, text]

theorem held_of_markup (inside : lexer.mode ≠ .text) : lexer.held = '<' :: lexer.raw.reverse := by
  unfold held
  split
  · contradiction
  · rfl

theorem held_keep {mode : Mode} (same : mode = .text ↔ lexer.mode = .text) :
    (lexer.keep c mode).held = lexer.held ++ [c] := by
  by_cases text : lexer.mode = .text
  · rw [held_of_text text, held_of_text (same.mpr text), keep, List.reverse_cons]
  · rw [held_of_markup text, held_of_markup (mt same.mp text), keep, List.reverse_cons]
    rfl

/-- The text up to a place is what the lexer has made of it: the finished tokens stand in it, and the
one at hand stands at its end. -/
structure Traces (lexer : Lexer) (read : List Char) : Prop where
  finished : ∀ lexeme ∈ lexer.finished, lexeme.StandsIn read
  current : lexer.fault = none → ∃ before, read = before ++ lexer.held ∧
    byteLength before = lexer.start ∧ byteLength read = lexer.offset

theorem Traces.later (traces : lexer.Traces read) (more : List Char) :
    ∀ lexeme ∈ lexer.finished, lexeme.StandsIn (read ++ more) := by
  intro lexeme member
  exact (traces.finished lexeme member).append more

/-- Character data at hand stands in the text, whether markup follows or not. -/
theorem Traces.text (traces : lexer.Traces read) (sane : lexer.fault = none)
    (outside : lexer.mode = .text) :
    Lexeme.StandsIn read ⟨.text lexer.raw.reverse, lexer.start, lexer.offset⟩ := by
  obtain ⟨before, whole, start, offset⟩ := traces.current sane
  rw [held_of_text outside] at whole
  refine ⟨_, .text _, before, [], by rw [List.append_nil, whole], start, ?_⟩
  rw [← offset, ← start]
  conv => rhs; rw [whole, byteLength_append]

theorem Traces.advanced (traces : lexer.Traces read) (sane : lexer.fault = none)
    (advanced : lexer.Advanced c after) : after.Traces (read ++ [c]) := by
  obtain ⟨before, whole, start, offset⟩ := traces.current sane
  cases advanced with
  | keep keeps =>
    refine ⟨traces.later [c], ?_⟩
    intro _
    refine ⟨before, ?_, start, ?_⟩
    · rw [held_keep keeps.text, whole, List.append_assoc]
    · simp only [keep, byteLength_append, byteLength_cons, byteLength_nil, Nat.add_zero, offset]
  | finish _ ends =>
    have bracket := ends.bracket
    subst bracket
    have size : byteLength (read ++ ['>']) = lexer.offset + 1 := by
      rw [byteLength_append, offset]
      rfl
    refine ⟨List.forall_mem_cons.mpr ⟨?_, traces.later ['>']⟩, ?_⟩
    · refine ⟨_, ends.spelled, before, [], ?_, start, ?_⟩
      · rw [whole, held_of_markup ends.inside, List.append_nil, List.append_assoc]
      · rw [whole, held_of_markup ends.inside, List.append_assoc, byteLength_append] at size
        rw [← start]
        exact size
    · intro _
      refine ⟨read ++ ['>'], ?_, size, size⟩
      rw [held_of_text rfl]
      exact (List.append_nil _).symm
  | beginMarkup outside bracket =>
    subst bracket
    refine ⟨?_, ?_⟩
    · unfold beginMarkup
      simp only
      split
      · exact traces.later ['<']
      · have spelled := (traces.text sane outside).append ['<']
        exact List.forall_mem_cons.mpr ⟨spelled, traces.later ['<']⟩
    · intro _
      refine ⟨read, ?_, offset, ?_⟩
      · rw [held_of_markup (by simp [beginMarkup])]
        rfl
      · rw [byteLength_append, offset]
        rfl
  | fail fault offset => exact ⟨traces.later [c], by simp [fail]⟩

theorem Traces.step (traces : lexer.Traces read) (c : Char) :
    (lexer.step c).Traces (read ++ [c]) := by
  unfold Lexer.step
  split
  · rename_i fault faulty
    exact ⟨traces.later [c], by simp [faulty]⟩
  · rename_i sane
    exact traces.advanced sane (advanced_advance lexer c)

theorem Traces.foldl (traces : lexer.Traces read) (text : List Char) :
    (text.foldl Lexer.step lexer).Traces (read ++ text) := by
  induction text generalizing lexer read with
  | nil =>
    rw [List.append_nil]
    exact traces
  | cons c rest ih =>
    have whole : read ++ c :: rest = read ++ [c] ++ rest := by simp
    rw [whole]
    exact ih (traces.step c)

theorem Traces.complete (traces : lexer.Traces read) :
    ∀ lexeme ∈ lexer.complete.finished, lexeme.StandsIn read := by
  unfold Lexer.complete
  split
  · exact traces.finished
  · rename_i sane
    split
    · rename_i outside
      split
      · exact traces.finished
      · exact List.forall_mem_cons.mpr ⟨traces.text sane outside, traces.finished⟩
    all_goals exact traces.finished

theorem traces_initial : initial.Traces [] := by
  refine ⟨by simp [initial], ?_⟩
  intro _
  exact ⟨[], rfl, rfl, rfl⟩

end Lexer

/-- Every token of a text stands in it between its positions, as it is written. -/
theorem Lexemes.standsIn_ofText (text : List Char) :
    ∀ lexeme ∈ (ofText text).lexemes, lexeme.StandsIn text := by
  intro lexeme member
  exact (Lexer.traces_initial.foldl text).complete lexeme (List.mem_reverse.mp member)

end KeyholeMarkup.Xml

import KeyholeMarkup.Xml.Token
import Mathlib.Data.List.Pairwise

/-! What reading one character does, and the positions of tokens. They come in the order of the text
and do not overlap. -/
namespace KeyholeMarkup.Xml

/-- How a token is written. Blanks may stand behind the name in a closing tag. -/
inductive Token.Spelled : Token → List Char → Prop
  | text (raw) : Spelled (.text raw) raw
  | opening (content) : Spelled (.opening content) ('<' :: content ++ ['>'])
  | selfClosing (content) : Spelled (.selfClosing content) ('<' :: content ++ ['/', '>'])
  | closing (content) :
    Spelled (.closing (Lexer.closingName content)) ('<' :: '/' :: content ++ ['>'])
  | cdata (raw) : Spelled (.cdata raw) ("<![CDATA[".toList ++ raw ++ "]]>".toList)
  | comment (raw) : Spelled (.comment raw) ("<!--".toList ++ raw ++ "-->".toList)
  | other (inner) : Spelled .other ('<' :: inner ++ ['>'])

namespace Lexer

/-- A character that goes on with the token at hand, and the mode after it. Comments begin behind
`<!` and go on up to their end. -/
structure Keeps (lexer : Lexer) (c : Char) (mode : Mode) : Prop where
  text : mode = .text ↔ lexer.mode = .text
  markup : mode ≠ .markup
  declaration : mode = .declaration → lexer.mode = .markup ∧ c = '!'
  comment : mode = .comment → lexer.mode = .declaration ∧ c = '-' ∨ lexer.mode = .comment ∧
    ¬ (c = '>' ∧ lexer.raw.length > 4 ∧ lexer.raw.take 2 = ['-', '-'])

/-- A token that ends here. A comment is what has been read of it but for its dashes. -/
def Finishes (lexer : Lexer) (token : Token) : Prop :=
  ∀ raw, token = .comment raw → lexer.mode = .comment ∧
    ∃ rest, lexer.raw.reverse = '!' :: '-' :: '-' :: rest ∧ raw = rest.take (rest.length - 2)

/-- The markup at hand becomes a token with a closing angle bracket. -/
structure Ends (lexer : Lexer) (c : Char) (token : Token) : Prop where
  bracket : c = '>'
  inside : lexer.mode ≠ .text
  spelled : token.Spelled ('<' :: lexer.raw.reverse ++ ['>'])

/-- All that reading one character can do. -/
inductive Advanced (lexer : Lexer) (c : Char) : Lexer → Prop
  | keep {mode : Mode} : lexer.Keeps c mode → Advanced lexer c (lexer.keep c mode)
  | finish {token : Token} : lexer.Finishes token → lexer.Ends c token →
    Advanced lexer c (lexer.finish token)
  | beginMarkup : lexer.mode = .text → c = '<' → Advanced lexer c lexer.beginMarkup
  | fail (fault : LexicalFault) (offset : Nat) : Advanced lexer c (lexer.fail fault offset)

theorem tagToken_ne_comment (raw held : List Char) : tagToken raw ≠ .comment held := by
  unfold tagToken
  split
  · nofun
  · split <;> nofun

theorem spelled_tagToken (raw : List Char) :
    (tagToken raw).Spelled ('<' :: raw.reverse ++ ['>']) := by
  unfold tagToken
  split
  · rename_i content written
    rw [written]
    exact .closing content
  split
  · rename_i rest _
    simpa using Token.Spelled.selfClosing rest.reverse
  · exact .opening _

/-- A text that goes on behind some opening and then ends with a mark twice has both marks. -/
theorem ends_of_take {before opening : List Char} {mark : Char}
    (ends : (opening ++ before).reverse.take 2 = [mark, mark]) (long : 2 ≤ before.length) :
    ∃ earlier, before = earlier ++ [mark, mark] := by
  rw [List.reverse_append, List.take_append_of_le_length (by simpa using long)] at ends
  refine ⟨(before.reverse.drop 2).reverse, ?_⟩
  have whole := List.take_append_drop 2 before.reverse
  rw [ends] at whole
  have reversed := congrArg List.reverse whole
  simpa using reversed.symm

section
variable {lexer : Lexer} {c : Char}

theorem advanced_keep {mode : Mode} (text : mode = .text ↔ lexer.mode = .text)
    (other : mode ≠ .markup ∧ mode ≠ .declaration ∧ mode ≠ .comment) :
    lexer.Advanced c (lexer.keep c mode) :=
  .keep ⟨text, other.1, fun same => absurd same other.2.1, fun same => absurd same other.2.2⟩

theorem advanced_stepTag (inside : lexer.mode ≠ .text) (quote : Option Char) :
    lexer.Advanced c (lexer.stepTag quote c) := by
  have tag (quote : Option Char) : lexer.Advanced c (lexer.keep c (.tag quote)) :=
    advanced_keep (by simp [inside]) ⟨nofun, nofun, nofun⟩
  unfold stepTag
  split
  · exact tag _
  split
  · rename_i bracket
    exact .finish (fun raw same => absurd same (tagToken_ne_comment _ raw))
      ⟨bracket, inside, spelled_tagToken _⟩
  split
  · exact tag _
  · exact tag _

section
variable (bracket : c = '>')
include bracket

theorem advanced_finishComment (mode : lexer.mode = .comment) (long : lexer.raw.length > 4)
    (closes : lexer.raw.take 2 = ['-', '-']) : lexer.Advanced c lexer.finishComment := by
  unfold finishComment
  split
  · rename_i rest held
    have whole : lexer.raw = (['!', '-', '-'] ++ rest).reverse := by
      rw [← List.reverse_reverse lexer.raw, held]
      rfl
    obtain ⟨earlier, rfl⟩ : ∃ earlier, rest = earlier ++ ['-', '-'] := by
      apply ends_of_take (whole ▸ closes)
      have size := congrArg List.length whole
      simp only [List.length_reverse, List.length_append, List.length_cons, List.length_nil] at size
      omega
    refine .finish ?_ ⟨bracket, by simp [mode], ?_⟩
    · rintro _ ⟨⟩
      exact ⟨mode, _, held, rfl⟩
    · rw [held]
      simpa using Token.Spelled.comment earlier
  · exact .fail _ _

theorem advanced_finishCdata (inside : lexer.mode ≠ .text)
    (closes : lexer.raw.take 2 = [']', ']']) : lexer.Advanced c lexer.finishCdata := by
  unfold finishCdata
  split
  · rename_i rest held
    have whole : lexer.raw = (['!', '[', 'C', 'D', 'A', 'T', 'A', '['] ++ rest).reverse := by
      rw [← List.reverse_reverse lexer.raw, held]
      rfl
    obtain ⟨earlier, rfl⟩ : ∃ earlier, rest = earlier ++ [']', ']'] := by
      apply ends_of_take (whole ▸ closes)
      rw [whole] at closes
      match rest with
      | [] => simp at closes
      | [mark] => simp at closes
      | _ :: _ :: _ => simp
    refine .finish nofun ⟨bracket, inside, ?_⟩
    rw [held]
    simpa using Token.Spelled.cdata earlier
  · exact .fail _ _

theorem advanced_finishDoctype (inside : lexer.mode ≠ .text) :
    lexer.Advanced c lexer.finishDoctype := by
  unfold finishDoctype
  simp only
  split
  · split
    · exact .fail _ _
    · exact .finish nofun ⟨bracket, inside, .other _⟩
  · exact .fail _ _

theorem advanced_finishInstruction (inside : lexer.mode ≠ .text) :
    lexer.Advanced c lexer.finishInstruction := by
  unfold finishInstruction
  split
  · exact .finish nofun ⟨bracket, inside, .other _⟩
  · exact .fail _ _

end

end

theorem advanced_advance (lexer : Lexer) (c : Char) : lexer.Advanced c (lexer.advance c) := by
  unfold advance
  cases mode : lexer.mode with
  | text =>
    simp only
    split
    · rename_i bracket
      exact .beginMarkup mode bracket
    · exact advanced_keep (by simp [mode]) ⟨nofun, nofun, nofun⟩
  | markup =>
    simp only
    split
    · rename_i bang
      exact .keep ⟨by simp [mode], nofun, fun _ => ⟨mode, bang⟩, nofun⟩
    split
    · exact advanced_keep (by simp [mode]) ⟨nofun, nofun, nofun⟩
    · exact advanced_stepTag (by simp [mode]) none
  | tag quote => exact advanced_stepTag (by simp [mode]) quote
  | declaration =>
    simp only
    split
    · rename_i dash
      exact .keep ⟨by simp [mode], nofun, nofun, fun _ => .inl ⟨mode, dash⟩⟩
    split
    · exact advanced_keep (by simp [mode]) ⟨nofun, nofun, nofun⟩
    split
    · exact advanced_keep (by simp [mode]) ⟨nofun, nofun, nofun⟩
    · exact .fail _ _
  | comment =>
    simp only
    split
    · rename_i ended
      obtain ⟨⟨bracket, long⟩, closes⟩ : (c = '>' ∧ lexer.raw.length > 4) ∧
          lexer.raw.take 2 = ['-', '-'] := by simpa using ended
      exact advanced_finishComment bracket mode long closes
    · rename_i goesOn
      exact .keep ⟨by simp [mode], nofun, nofun,
        fun _ => .inr ⟨mode, by simpa [and_assoc] using goesOn⟩⟩
  | cdata =>
    simp only
    split
    · rename_i ended
      obtain ⟨bracket, closes⟩ : c = '>' ∧ lexer.raw.take 2 = [']', ']'] := by simpa using ended
      exact advanced_finishCdata bracket (by simp [mode]) closes
    · exact advanced_keep (by simp [mode]) ⟨nofun, nofun, nofun⟩
  | doctype depth =>
    simp only
    split
    · rename_i bracket
      split
      · exact advanced_finishDoctype bracket (by simp [mode])
      · exact advanced_keep (by simp [mode]) ⟨nofun, nofun, nofun⟩
    split
    · exact advanced_keep (by simp [mode]) ⟨nofun, nofun, nofun⟩
    · exact advanced_keep (by simp [mode]) ⟨nofun, nofun, nofun⟩
  | instruction =>
    simp only
    split
    · rename_i ended
      obtain ⟨bracket, -⟩ : c = '>' ∧ lexer.raw.take 1 = ['?'] := by simpa using ended
      exact advanced_finishInstruction bracket (by simp [mode])
    · exact advanced_keep (by simp [mode]) ⟨nofun, nofun, nofun⟩

/-- The finished tokens lie one behind the other, each with an extent, and the current one begins
behind them. -/
structure Ordered (lexer : Lexer) : Prop where
  apart : lexer.finished.Pairwise fun later earlier => earlier.stop ≤ later.start
  extent : ∀ lexeme ∈ lexer.finished, lexeme.start < lexeme.stop
  behind : ∀ lexeme ∈ lexer.finished, lexeme.stop ≤ lexer.start
  room : lexer.start + lexer.raw.length ≤ lexer.offset

theorem Ordered.extend {lexer : Lexer} (ordered : lexer.Ordered) (token : Token) {stop : Nat}
    (extent : lexer.start < stop) (mode : Mode) {offset : Nat} (reached : stop ≤ offset) :
    Ordered { lexer with
      mode, raw := [], start := stop, offset
      finished := ⟨token, lexer.start, stop⟩ :: lexer.finished } := by
  refine ⟨List.pairwise_cons.mpr ⟨ordered.behind, ordered.apart⟩, ?_, ?_, reached⟩
  · intro lexeme member
    rcases List.mem_cons.mp member with rfl | earlier
    · exact extent
    · exact ordered.extent lexeme earlier
  · intro lexeme member
    rcases List.mem_cons.mp member with rfl | earlier
    · exact Nat.le_refl _
    · exact Nat.le_trans (ordered.behind lexeme earlier) (Nat.le_of_lt extent)

theorem Ordered.start_lt_offset {lexer : Lexer} (ordered : lexer.Ordered) (begun : lexer.raw ≠ []) :
    lexer.start < lexer.offset := by
  have filled := List.length_pos_iff.mpr begun
  have room := ordered.room
  omega

theorem Ordered.advanced {lexer after : Lexer} {c : Char} (ordered : lexer.Ordered)
    (advanced : lexer.Advanced c after) : after.Ordered := by
  have room := ordered.room
  cases advanced with
  | keep _ =>
    refine ⟨ordered.apart, ordered.extent, ordered.behind, ?_⟩
    have size := c.utf8Size_pos
    simp only [keep, List.length_cons]
    omega
  | finish _ _ => exact ordered.extend _ (by omega) .text (Nat.le_refl _)
  | beginMarkup _ _ =>
    unfold beginMarkup
    split
    · refine ⟨ordered.apart, ordered.extent, ?_, by simp⟩
      intro lexeme member
      exact Nat.le_trans (ordered.behind lexeme member) (by simp only; omega)
    · rename_i begun
      exact ordered.extend _ (ordered.start_lt_offset (by simpa using begun)) .markup (by omega)
  | fail fault offset => exact ⟨ordered.apart, ordered.extent, ordered.behind, room⟩

theorem Ordered.step {lexer : Lexer} (ordered : lexer.Ordered) (c : Char) :
    (lexer.step c).Ordered := by
  unfold Lexer.step
  split
  · exact ordered
  · exact ordered.advanced (advanced_advance lexer c)

theorem Ordered.complete {lexer : Lexer} (ordered : lexer.Ordered) : lexer.complete.Ordered := by
  have failed (fault : LexicalFault) : (lexer.fail fault lexer.start).Ordered :=
    ⟨ordered.apart, ordered.extent, ordered.behind, ordered.room⟩
  unfold Lexer.complete
  split
  · exact ordered
  split
  · split
    · exact ordered
    · rename_i begun
      exact ordered.extend _ (ordered.start_lt_offset (by simpa using begun)) _ (Nat.le_refl _)
  all_goals exact failed _

theorem ordered_foldl {lexer : Lexer} (ordered : lexer.Ordered) (text : List Char) :
    (text.foldl Lexer.step lexer).Ordered := by
  induction text generalizing lexer with
  | nil => exact ordered
  | cons c rest ih => exact ih (ordered.step c)

end Lexer

namespace Lexemes

theorem ordered_ofText (text : List Char) :
    (text.foldl Lexer.step Lexer.initial).complete.Ordered := by
  have initial : Lexer.initial.Ordered := by constructor <;> simp [Lexer.initial]
  exact (Lexer.ordered_foldl initial text).complete

/-- The tokens of a text in order: each ends before the next one starts. -/
theorem pairwise_ofText (text : List Char) :
    (ofText text).lexemes.Pairwise fun earlier later => earlier.stop ≤ later.start :=
  List.pairwise_reverse.mpr (ordered_ofText text).apart

theorem start_lt_stop_ofText (text : List Char) :
    ∀ lexeme ∈ (ofText text).lexemes, lexeme.start < lexeme.stop := fun lexeme member =>
  (ordered_ofText text).extent lexeme (List.mem_reverse.mp member)

end Lexemes
end KeyholeMarkup.Xml

import KeyholeMarkup.Source.Lines
import Mathlib.Data.List.DropRight
import Mathlib.Data.List.Induction
import Mathlib.Data.Prod.Lex
import Mathlib.Data.Set.Function

/-! Rows and columns against the text. The lines of a text start where its index says, the search
for an offset ends at the line that the offset is on, and the location found there counts the line
feeds before the offset and the characters after the last of them. -/
namespace KeyholeMarkup.Source
open KeyholeMarkup.Text

section Search
variable {entries : List Nat} {low high : Nat} (wanted : Nat)

/-- What is left to a search: the entries before `low` are too small and those from `high` on too
big. -/
structure Bracketed (entries : List Nat) (wanted low high : Nat) : Prop where
  ordered : low ≤ high
  inside : high ≤ entries.length
  below : ∀ position (_ : position < entries.length), position < low → entries[position] < wanted
  above : ∀ position (_ : position < entries.length), high ≤ position → wanted < entries[position]

/-- The landing says of the entries what they are. -/
def Landing.Answers (entries : List Nat) (wanted : Nat) : Landing → Prop
  | .found position => ∃ _ : position < entries.length, entries[position] = wanted
  | .absent position => Bracketed entries wanted position position

variable {wanted} in
theorem answers_searchBetween (ascending : entries.Pairwise (· < ·)) (inside : high ≤ entries.length)
    (bracketed : Bracketed entries wanted low high) :
    (searchBetween entries wanted low high inside).Answers entries wanted := by
  have order := List.pairwise_iff_getElem.mp ascending
  fun_induction searchBetween entries wanted low high inside with
  | case1 low high inside left middle reached same => exact ⟨reached, same⟩
  | case2 low high inside left middle reached other smaller ih =>
    refine ih ⟨by omega, inside, fun position present before => ?_, bracketed.above⟩
    rcases Nat.lt_or_eq_of_le (Nat.le_of_lt_succ before) with earlier | rfl
    · exact Nat.lt_trans (order position middle present reached earlier) smaller
    · exact smaller
  | case3 low high inside left middle reached other notSmaller ih =>
    have bigger : wanted < entries[middle] := by omega
    refine ih ⟨by omega, Nat.le_of_lt reached, bracketed.below, fun position present after => ?_⟩
    rcases Nat.lt_or_eq_of_le after with later | rfl
    · exact Nat.lt_trans bigger (order middle position reached present later)
    · exact bigger
  | case4 low high inside done =>
    obtain rfl : low = high := Nat.le_antisymm bracketed.ordered (Nat.le_of_not_lt done)
    exact bracketed

theorem answers_search (ascending : entries.Pairwise (· < ·)) :
    (search entries wanted).Answers entries wanted := by
  refine answers_searchBetween ascending _ ⟨Nat.zero_le _, Nat.le_refl _, ?_, ?_⟩
  · intro position _ before
    exact absurd before (Nat.not_lt_zero position)
  · intro position present after
    exact absurd present (Nat.not_lt_of_le after)

end Search

namespace LineIndex

/-- The row of an offset is that of the last line that starts at the offset or before. -/
theorem row?_eq {index : LineIndex} {front back : List Nat} {last offset : Nat}
    (ascending : index.starts.Pairwise (· < ·)) (starts : index.starts = front ++ last :: back)
    (reached : last ≤ offset) (beyond : ∀ start ∈ back, offset < start) :
    index.row? offset = some front.length := by
  have order := List.pairwise_iff_getElem.mp ascending
  have present : front.length < index.starts.length := by simp [starts]
  have here : index.starts[front.length] = last := by simp [starts]
  have later (position : Nat) (inside : position < index.starts.length)
      (after : front.length < position) : offset < index.starts[position] := by
    obtain ⟨next, rfl⟩ := Nat.exists_eq_add_of_lt after
    refine beyond _ ?_
    simp [starts, List.getElem_append_right, Nat.add_assoc]
  have answer := answers_search offset ascending
  unfold row?
  cases landing : search index.starts offset with
  | found position =>
    rw [landing] at answer
    obtain ⟨inside, same⟩ := answer
    rcases Nat.lt_trichotomy position front.length with before | rfl | after
    · have smaller := order position front.length inside present before
      omega
    · rfl
    · have bigger := later position inside after
      omega
  | absent position =>
    rw [landing] at answer
    have after : front.length < position := by
      by_contra notAfter
      have bigger := answer.above front.length present (Nat.le_of_not_lt notAfter)
      omega
    have next : position = front.length + 1 := by
      by_contra other
      have inside : front.length + 1 < index.starts.length := by
        have bound := answer.inside
        omega
      have smaller := answer.below (front.length + 1) inside (by omega)
      have bigger := later (front.length + 1) inside (by omega)
      omega
    rw [next]

/-- Where the text of the index is cut at an offset in two, and the index with it. -/
theorem locate?_eq {index : LineIndex} {front back : List Nat} {last offset : Nat} (text : List Char)
    (ascending : index.starts.Pairwise (· < ·)) (starts : index.starts = front ++ last :: back)
    (reached : last ≤ min offset index.total)
    (beyond : ∀ start ∈ back, min offset index.total < start) :
    index.locate? text offset = some ⟨min offset index.total, front.length,
      ((between? last (min offset index.total) text).map List.length).getD
        (min offset index.total - last)⟩ := by
  have start : index.starts[front.length]? = some last := by simp [starts]
  have notBefore : ¬ min offset index.total < last := Nat.not_lt_of_le reached
  simp only [locate?, row?_eq ascending starts reached beyond, start, Option.bind_some, notBefore,
    if_false]

/-- The line that an offset is on, found by going through the index from its beginning. -/
theorem exists_line {first offset : Nat} {rest : List Nat}
    (ascending : (first :: rest).Pairwise (· < ·)) (reached : first ≤ offset) :
    ∃ front last back, first :: rest = front ++ last :: back ∧
      last ≤ offset ∧ ∀ start ∈ back, offset < start := by
  induction rest generalizing first with
  | nil => exact ⟨[], first, [], rfl, reached, by simp⟩
  | cons next rest ih =>
    obtain ⟨_, later⟩ := List.pairwise_cons.mp ascending
    by_cases further : next ≤ offset
    · obtain ⟨front, last, back, whole, before, beyond⟩ := ih later further
      exact ⟨first :: front, last, back, by rw [whole, List.cons_append], before, beyond⟩
    · refine ⟨[], first, next :: rest, rfl, reached, fun start member => ?_⟩
      rcases List.mem_cons.mp member with rfl | member
      · exact Nat.lt_of_not_le further
      · exact Nat.lt_trans (Nat.lt_of_not_le further) ((List.pairwise_cons.mp later).1 start member)

/-! ### The index of a text -/

/-- The offsets behind the line feeds of a text that begins at `offset`. -/
def startsAfter (offset : Nat) : List Char → List Nat
  | [] => []
  | c :: rest =>
    let next := offset + c.utf8Size
    if c = '\n' then next :: startsAfter next rest else startsAfter next rest

/-- In the encoding of other characters there is no byte that could be taken for a line feed. -/
theorem lineFeed_not_mem {c : Char} (other : c ≠ '\n') : lineFeed ∉ String.utf8EncodeChar c := by
  have apart : c.val.toNat ≠ 10 := fun same => other (Char.ext (UInt32.toNat_inj.mp same))
  unfold String.utf8EncodeChar lineFeed
  generalize c.val.toNat = code at apart
  dsimp only
  repeat' split
  all_goals
    simp only [List.mem_cons, List.not_mem_nil, or_false, ← UInt8.toNat_inj, UInt8.toNat_ofNat']
    have ten : (10 : UInt8).toNat = 10 := rfl
    omega

theorem length_bytes (text : List Char) :
    (text.flatMap String.utf8EncodeChar).length = byteLength text := by
  induction text with
  | nil => rfl
  | cons c rest ih =>
    rw [List.flatMap_cons, List.length_append, String.length_utf8EncodeChar, ih, byteLength_cons]

theorem lineStarts_eq (offset : Nat) (text : List Char) :
    (((text.flatMap String.utf8EncodeChar).zipIdx offset).filter (·.1 == lineFeed)).map (·.2 + 1) =
      startsAfter offset text := by
  induction text generalizing offset with
  | nil => rfl
  | cons c rest ih =>
    rw [List.flatMap_cons, List.zipIdx_append, List.filter_append, List.map_append,
      String.length_utf8EncodeChar, ih, startsAfter]
    by_cases feed : c = '\n'
    · subst feed
      rfl
    · have none : ((String.utf8EncodeChar c).zipIdx offset).filter (·.1 == lineFeed) = [] := by
        rw [List.filter_eq_nil_iff]
        rintro ⟨byte, position⟩ member same
        have found : byte = lineFeed := eq_of_beq same
        exact lineFeed_not_mem feed (found ▸ List.fst_mem_of_mem_zipIdx member)
      rw [none, if_neg feed, List.map_nil, List.nil_append]

theorem ofText_eq (text : List Char) : ofText text = ⟨0 :: startsAfter 0 text, byteLength text⟩ := by
  rw [ofText, lineStarts_eq, length_bytes]

theorem startsAfter_append (offset : Nat) (first second : List Char) :
    startsAfter offset (first ++ second) =
      startsAfter offset first ++ startsAfter (offset + byteLength first) second := by
  induction first generalizing offset with
  | nil => rfl
  | cons c rest ih =>
    rw [List.cons_append, startsAfter, startsAfter, ih, byteLength_cons, Nat.add_assoc]
    split <;> rfl

theorem lt_of_mem_startsAfter {offset start : Nat} {text : List Char}
    (member : start ∈ startsAfter offset text) : offset < start := by
  induction text generalizing offset with
  | nil => cases member
  | cons c rest ih =>
    have size := c.utf8Size_pos
    rw [startsAfter] at member
    split at member
    · rcases List.mem_cons.mp member with rfl | member
      · omega
      · have later := ih member
        omega
    · have later := ih member
      omega

theorem pairwise_startsAfter (offset : Nat) (text : List Char) :
    (startsAfter offset text).Pairwise (· < ·) := by
  induction text generalizing offset with
  | nil => exact .nil
  | cons c rest ih =>
    rw [startsAfter]
    split
    · exact .cons (fun start member => lt_of_mem_startsAfter member) (ih _)
    · exact ih _

theorem ascending_ofText (text : List Char) : (ofText text).starts.Pairwise (· < ·) := by
  rw [ofText_eq]
  exact .cons (fun start member => lt_of_mem_startsAfter member) (pairwise_startsAfter 0 text)

/-- The last of the lines that start in the first part of a text, and how many there are before
it. -/
theorem exists_starts (before : List Char) : ∃ front,
    0 :: startsAfter 0 before = front ++ [byteLength (before.rdropWhile (· ≠ '\n'))] ∧
      front.length = before.count '\n' := by
  induction before using List.reverseRecOn with
  | nil => exact ⟨[], rfl, rfl⟩
  | append_singleton before c ih =>
    obtain ⟨front, starts, lines⟩ := ih
    rw [startsAfter_append, List.rdropWhile_concat, List.count_append]
    by_cases feed : c = '\n'
    · subst feed
      refine ⟨0 :: startsAfter 0 before, ?_, ?_⟩
      · simp [startsAfter]
      · simp [starts, lines]
    · exact ⟨front, by simpa [startsAfter, feed] using starts, by simpa [feed] using lines⟩

theorem locate?_cut (before after : List Char) :
    (ofText (before ++ after)).locate? (before ++ after) (byteLength before) =
      some ⟨byteLength before, before.count '\n', (before.rtakeWhile (· ≠ '\n')).length⟩ := by
  obtain ⟨front, starts, lines⟩ := exists_starts before
  have whole : before.rdropWhile (· ≠ '\n') ++ before.rtakeWhile (· ≠ '\n') = before :=
    List.rdropWhile_append_rtakeWhile
  have start : byteLength (before.rdropWhile (· ≠ '\n')) ≤ byteLength before := by
    conv_rhs => rw [← whole, byteLength_append]
    omega
  have split : (ofText (before ++ after)).starts = front ++
      byteLength (before.rdropWhile (· ≠ '\n')) :: startsAfter (byteLength before) after := by
    rw [ofText_eq, startsAfter_append, Nat.zero_add]
    dsimp only
    rw [← List.cons_append, starts, List.append_assoc, List.singleton_append]
  have total : min (byteLength before) (ofText (before ++ after)).total = byteLength before := by
    rw [ofText_eq]
    simp
  have line : between? (byteLength (before.rdropWhile (· ≠ '\n'))) (byteLength before)
      (before ++ after) = some (before.rtakeWhile (· ≠ '\n')) := by
    have piece := between?_append (before.rdropWhile (· ≠ '\n'))
      (before.rtakeWhile (· ≠ '\n')) after
    rwa [whole] at piece
  rw [locate?_eq _ (ascending_ofText _) split (by rwa [total])
    (by rw [total]; exact fun start member => lt_of_mem_startsAfter member), total, line, lines]
  rfl

theorem exists_locate? (text : List Char) (offset : Nat) :
    ∃ location, (ofText text).locate? text offset = some location := by
  have ascending := ascending_ofText text
  have begins : (ofText text).starts = 0 :: startsAfter 0 text := by rw [ofText_eq]
  obtain ⟨front, last, back, split, reached, beyond⟩ :=
    exists_line (begins ▸ ascending) (Nat.zero_le (min offset (ofText text).total))
  exact ⟨_, locate?_eq text ascending (begins.trans split) reached beyond⟩

theorem locate?_end {text : List Char} {offset : Nat} (past : byteLength text ≤ offset) :
    (ofText text).locate? text offset = (ofText text).locate? text (byteLength text) := by
  have total : (ofText text).total = byteLength text := by rw [ofText_eq]
  rw [locate?, locate?, total, Nat.min_eq_right past, Nat.min_self]

end LineIndex

/-- The offsets at which a text can be cut between two characters, its ends among them. -/
def IsBoundary (text : List Char) (offset : Nat) : Prop :=
  ∃ before after, before ++ after = text ∧ byteLength before = offset

/-- The row and the column of an offset, to be compared row first. -/
def place? (text : List Char) (offset : Nat) : Option (Nat ×ₗ Nat) :=
  ((LineIndex.ofText text).locate? text offset).map fun location =>
    toLex (location.row, location.column)

/-- Further on in a text the row grows with each line feed, and without any the column does. -/
theorem place_lt (before : List Char) {piece : List Char} (nonempty : piece ≠ []) :
    toLex (before.count '\n', (before.rtakeWhile (· ≠ '\n')).length) <
      toLex ((before ++ piece).count '\n', ((before ++ piece).rtakeWhile (· ≠ '\n')).length) := by
  rw [Prod.Lex.toLex_lt_toLex, List.count_append]
  by_cases feeds : '\n' ∈ piece
  · have more := List.count_pos_iff.mpr feeds
    exact .inl (by omega)
  · have none := List.count_eq_zero.mpr feeds
    have plain : ∀ c ∈ piece.reverse, decide (c ≠ '\n') = true := by
      intro c member
      rw [List.mem_reverse] at member
      simpa using fun same : c = '\n' => feeds (same ▸ member)
    have longer := List.length_pos_of_ne_nil nonempty
    rw [List.rtakeWhile, List.rtakeWhile, List.reverse_append, List.takeWhile_append_of_pos plain]
    exact .inr ⟨by omega, by simp; omega⟩

theorem exists_place_lt {text : List Char} {first second : Nat} (boundary : IsBoundary text first)
    (boundary' : IsBoundary text second) (further : first < second) :
    ∃ place place', place? text first = some place ∧ place? text second = some place' ∧
      place < place' := by
  obtain ⟨before, after, rfl, rfl⟩ := boundary
  obtain ⟨before', after', same, rfl⟩ := boundary'
  have begins : before <+: before' :=
    prefix_of_byteLength_le ⟨after, rfl⟩ ⟨after', same⟩ (Nat.le_of_lt further)
  obtain ⟨piece, rfl⟩ := begins
  have nonempty : piece ≠ [] := by
    rintro rfl
    simp at further
  refine ⟨_, _, by rw [place?, LineIndex.locate?_cut]; rfl, ?_, place_lt before nonempty⟩
  rw [place?, ← same, LineIndex.locate?_cut]
  rfl

theorem place?_ne {text : List Char} {first second : Nat} (boundary : IsBoundary text first)
    (boundary' : IsBoundary text second) (further : first < second) :
    place? text first ≠ place? text second := by
  obtain ⟨place, place', found, found', order⟩ := exists_place_lt boundary boundary' further
  rw [found, found']
  exact fun same => order.ne (Option.some.inj same)

/-- Every offset has a location, and those past the end have that of the end. Between characters it
is the number of line feeds before the offset and the number of characters after the last of them;
so rows and columns grow with the offset and tell offsets apart. -/
theorem locates_offsets (text : List Char) :
    (∀ offset, ∃ location, (LineIndex.ofText text).locate? text offset = some location) ∧
    (∀ offset, byteLength text ≤ offset → (LineIndex.ofText text).locate? text offset =
      (LineIndex.ofText text).locate? text (byteLength text)) ∧
    (∀ before after, before ++ after = text →
      (LineIndex.ofText text).locate? text (byteLength before) = some
        ⟨byteLength before, before.count '\n', (before.rtakeWhile (· ≠ '\n')).length⟩) ∧
    (∀ first second, IsBoundary text first → IsBoundary text second → first < second →
      ∃ place place', place? text first = some place ∧ place? text second = some place' ∧
        place < place') ∧
    Set.InjOn (place? text) {offset | IsBoundary text offset} := by
  refine ⟨LineIndex.exists_locate? text, fun _ => LineIndex.locate?_end, ?_,
    fun _ _ => exists_place_lt, ?_⟩
  · rintro before after rfl
    exact LineIndex.locate?_cut before after
  · intro first boundary second boundary' same
    by_contra other
    rcases Nat.lt_or_gt_of_ne other with further | further
    · exact place?_ne boundary boundary' further same
    · exact place?_ne boundary' boundary further same.symm

/-- Behind a character of two bytes the column counts characters. -/
example : (LineIndex.ofText "a\né<".toList).locate? "a\né<".toList 4 = some ⟨4, 1, 1⟩ := by cbv

end KeyholeMarkup.Source

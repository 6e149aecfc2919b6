import KeyholeMarkup.Proofs.Xml.Reference
import KeyholeMarkup.Text.Blank

/-! Line ends of another style. What does not tell the characters apart that begin or end lines finds
the same in a text and in one with other line ends. -/
namespace KeyholeMarkup.Xml
open KeyholeMarkup.Text

/-- The text with other line ends in place of its line feeds. -/
def withLineEnds (ends text : List Char) : List Char := substitute '\n' ends text

/-- The line ends of other systems. -/
inductive IsLineEnd : List Char → Prop
  | both : IsLineEnd ['\r', '\n']
  | carriageReturn : IsLineEnd ['\r']

/-- One or more characters that begin or end lines. -/
structure IsBreak (ends : List Char) : Prop where
  nonempty : ends ≠ []
  each : ∀ c ∈ ends, c = '\n' ∨ c = '\r'

theorem IsLineEnd.isBreak {ends : List Char} (lineEnd : IsLineEnd ends) : IsBreak ends := by
  cases lineEnd <;> exact ⟨by simp, by simp⟩

theorem IsBreak.reverse {ends : List Char} (breaks : IsBreak ends) : IsBreak ends.reverse :=
  ⟨by simpa using breaks.nonempty, fun c member => breaks.each c (List.mem_reverse.mp member)⟩

section
variable {ends text part : List Char} {c : Char}

@[simp] theorem withLineEnds_nil (ends : List Char) : withLineEnds ends [] = [] := rfl

@[simp] theorem withLineEnds_feed (ends text : List Char) :
    withLineEnds ends ('\n' :: text) = ends ++ withLineEnds ends text := by
  simp [withLineEnds, substitute]

theorem withLineEnds_cons (other : c ≠ '\n') (ends text : List Char) :
    withLineEnds ends (c :: text) = c :: withLineEnds ends text := by
  simp [withLineEnds, substitute, other]

@[simp] theorem withLineEnds_append (ends first second : List Char) :
    withLineEnds ends (first ++ second) = withLineEnds ends first ++ withLineEnds ends second := by
  simp [withLineEnds, substitute]

theorem reverse_withLineEnds (ends text : List Char) :
    (withLineEnds ends text).reverse = withLineEnds ends.reverse text.reverse := by
  induction text with
  | nil => rfl
  | cons c rest ih =>
    by_cases feed : c = '\n'
    · simp [feed, ih]
    · simp [withLineEnds_cons feed, ih]

theorem withLineEnds_eq_self (whole : '\n' ∉ text) : withLineEnds ends text = text := by
  induction text with
  | nil => rfl
  | cons c rest ih =>
    rw [List.mem_cons, not_or] at whole
    rw [withLineEnds_cons (Ne.symm whole.1), ih whole.2]

section
variable (breaks : IsBreak ends)
include breaks

theorem withLineEnds_eq_nil_iff : withLineEnds ends text = [] ↔ text = [] := by
  cases text with
  | nil => simp
  | cons c rest =>
    by_cases feed : c = '\n'
    · simp [feed, breaks.nonempty]
    · simp [withLineEnds_cons feed]

theorem isEmpty_withLineEnds : (withLineEnds ends text).isEmpty = text.isEmpty := by
  rw [Bool.eq_iff_iff, List.isEmpty_iff, List.isEmpty_iff, withLineEnds_eq_nil_iff breaks]

/-- Characters that are no line ends begin a text in any style. -/
theorem prefix_withLineEnds_iff (plain : ∀ c ∈ part, c ≠ '\n' ∧ c ≠ '\r') :
    part <+: withLineEnds ends text ↔ part <+: text := by
  induction part generalizing text with
  | nil => simp
  | cons d others ih =>
    obtain ⟨notFeed, notReturn⟩ := plain d List.mem_cons_self
    have later := fun other member => plain other (List.mem_cons_of_mem d member)
    cases text with
    | nil => simp
    | cons c rest =>
      by_cases feed : c = '\n'
      · subst feed
        obtain ⟨first, more, same⟩ := List.exists_cons_of_ne_nil breaks.nonempty
        have apart : d ≠ first := by
          rintro rfl
          obtain isFeed | isReturn := breaks.each d (by simp [same])
          · exact notFeed isFeed
          · exact notReturn isReturn
        simp [same, List.cons_prefix_cons, apart, notFeed]
      · rw [withLineEnds_cons feed, List.cons_prefix_cons, List.cons_prefix_cons, ih later]

theorem take_withLineEnds_iff (plain : ∀ c ∈ part, c ≠ '\n' ∧ c ≠ '\r') {size : Nat}
    (whole : part.length = size) :
    (withLineEnds ends text).take size = part ↔ text.take size = part := by
  rw [eq_comm, eq_comm (b := part), ← whole, ← List.prefix_iff_eq_take,
    ← List.prefix_iff_eq_take, prefix_withLineEnds_iff breaks plain]

theorem length_le_withLineEnds : text.length ≤ (withLineEnds ends text).length := by
  have some := List.length_pos_iff.mpr breaks.nonempty
  induction text with
  | nil => simp
  | cons c rest ih =>
    by_cases feed : c = '\n'
    · simp only [feed, withLineEnds_feed, List.length_append, List.length_cons]
      omega
    · simpa [withLineEnds_cons feed] using ih

variable {p : Char → Bool} (alike : p '\r' = p '\n')
include alike

theorem eq_of_mem_break (member : c ∈ ends) : p c = p '\n' := by
  obtain rfl | rfl := breaks.each c member
  · rfl
  · exact alike

theorem all_withLineEnds : (withLineEnds ends text).all p = text.all p := by
  induction text with
  | nil => rfl
  | cons c rest ih =>
    by_cases feed : c = '\n'
    · subst feed
      have same : ends.all p = p '\n' := by
        rw [Bool.eq_iff_iff, List.all_eq_true]
        constructor
        · intro all
          obtain ⟨first, more, rfl⟩ := List.exists_cons_of_ne_nil breaks.nonempty
          rw [← eq_of_mem_break breaks alike List.mem_cons_self]
          exact all first List.mem_cons_self
        · exact fun holds c member => (eq_of_mem_break breaks alike member).trans holds
      simp [List.all_append, same, ih]
    · simp [withLineEnds_cons feed, ih]

theorem dropWhile_withLineEnds :
    (withLineEnds ends text).dropWhile p = withLineEnds ends (text.dropWhile p) := by
  induction text with
  | nil => rfl
  | cons c rest ih =>
    by_cases feed : c = '\n'
    · subst feed
      rw [withLineEnds_feed]
      cases holds : p '\n' with
      | true =>
        rw [List.dropWhile_append_of_pos, ih, List.dropWhile_cons_of_pos holds]
        exact fun c member => (eq_of_mem_break breaks alike member).trans holds
      | false =>
        obtain ⟨first, more, same⟩ := List.exists_cons_of_ne_nil breaks.nonempty
        have stops : p first = false := by
          rw [eq_of_mem_break breaks alike (show first ∈ ends by simp [same]), holds]
        rw [List.dropWhile_cons_of_neg (by simp [holds]), withLineEnds_feed, same, List.cons_append,
          List.dropWhile_cons_of_neg (by simp [stops])]
    · rw [withLineEnds_cons feed, List.dropWhile_cons, List.dropWhile_cons]
      split
      · exact ih
      · exact (withLineEnds_cons feed _ _).symm

theorem takeWhile_withLineEnds :
    (withLineEnds ends text).takeWhile p = withLineEnds ends (text.takeWhile p) := by
  induction text with
  | nil => rfl
  | cons c rest ih =>
    by_cases feed : c = '\n'
    · subst feed
      rw [withLineEnds_feed]
      cases holds : p '\n' with
      | true =>
        rw [List.takeWhile_append_of_pos, ih, List.takeWhile_cons_of_pos holds, withLineEnds_feed]
        exact fun c member => (eq_of_mem_break breaks alike member).trans holds
      | false =>
        obtain ⟨first, more, same⟩ := List.exists_cons_of_ne_nil breaks.nonempty
        have stops : p first = false := by
          rw [eq_of_mem_break breaks alike (show first ∈ ends by simp [same]), holds]
        rw [List.takeWhile_cons_of_neg (by simp [holds]), same, List.cons_append,
          List.takeWhile_cons_of_neg (by simp [stops]), withLineEnds_nil]
    · rw [withLineEnds_cons feed, List.takeWhile_cons, List.takeWhile_cons]
      split
      · rw [ih, withLineEnds_cons feed]
      · rfl

end

/-- Line ends do not turn a text into another one without them. -/
theorem withLineEnds_eq_iff (breaks : IsBreak ends) (plain : ∀ c ∈ part, c ≠ '\n' ∧ c ≠ '\r') :
    withLineEnds ends text = part ↔ text = part := by
  have notFeed : '\n' ∉ part := fun member => (plain _ member).1 rfl
  constructor
  · rintro rfl
    have all : (withLineEnds ends text).all (fun c => c ≠ '\n' ∧ c ≠ '\r') = true := by
      simpa using plain
    rw [all_withLineEnds breaks (by decide), List.all_eq_true] at all
    exact (withLineEnds_eq_self fun member => absurd (all _ member) (by decide)).symm
  · rintro rfl
    exact withLineEnds_eq_self notFeed

/-- Two runs over a text, one of them with other line ends, stay related if they do so over every line
end and every other character. -/
theorem foldl_withLineEnds {α β : Type} {related : α → β → Prop} {step : α → Char → α}
    {stepToo : β → Char → β} {first : α} {second : β} (clean : '\r' ∉ text)
    (begins : related first second)
    (lineEnd : ∀ {a b}, related a b → related (step a '\n') (ends.foldl stepToo b))
    (other : ∀ {a b c}, related a b → c ≠ '\n' → c ≠ '\r' → related (step a c) (stepToo b c)) :
    related (text.foldl step first) ((withLineEnds ends text).foldl stepToo second) := by
  induction text generalizing first second with
  | nil => exact begins
  | cons c rest ih =>
    rw [List.mem_cons, not_or] at clean
    by_cases feed : c = '\n'
    · subst feed
      rw [withLineEnds_feed, List.foldl_append, List.foldl_cons]
      exact ih clean.2 (lineEnd begins)
    · rw [withLineEnds_cons feed, List.foldl_cons, List.foldl_cons]
      exact ih clean.2 (other begins feed (Ne.symm clean.1))

/-- Whatever the line ends, they are read as line feeds. -/
theorem normalizeLineEnds_withLineEnds (lineEnd : IsLineEnd ends) (clean : '\r' ∉ text) :
    normalizeLineEnds (withLineEnds ends text) = text := by
  induction text with
  | nil => rfl
  | cons c rest ih =>
    rw [List.mem_cons, not_or] at clean
    by_cases feed : c = '\n'
    · subst feed
      rw [withLineEnds_feed]
      cases lineEnd with
      | both => exact congrArg ('\n' :: ·) (ih clean.2)
      | carriageReturn =>
        have unfed : ∀ others, withLineEnds ['\r'] rest ≠ '\n' :: others := by
          intro others same
          cases rest with
          | nil => simp at same
          | cons d more =>
            by_cases again : d = '\n'
            · simp [again] at same
            · rw [withLineEnds_cons again] at same
              exact again (List.cons.inj same).1
        rw [List.singleton_append, normalizeLineEnds.eq_2 _ unfed, ih clean.2]
    · rw [withLineEnds_cons feed,
        normalizeLineEnds.eq_3 _ _ (fun _ same _ => clean.1 same.symm) (Ne.symm clean.1), ih clean.2]

theorem normalizeLineEnds_restyled (lineEnd : IsLineEnd ends) (clean : '\r' ∉ text) :
    normalizeLineEnds (withLineEnds ends text) = normalizeLineEnds text := by
  rw [normalizeLineEnds_withLineEnds lineEnd clean, normalizeLineEnds_eq_self_iff.mpr clean]

theorem normalizeValue_withLineEnds (lineEnd : IsLineEnd ends) (clean : '\r' ∉ text) :
    normalizeValue (withLineEnds ends text) = normalizeValue text := by
  rw [normalizeValue, normalizeValue, normalizeLineEnds_restyled lineEnd clean]

end

end KeyholeMarkup.Xml

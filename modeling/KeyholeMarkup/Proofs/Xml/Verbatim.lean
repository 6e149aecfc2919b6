import KeyholeMarkup.Proofs.Xml.Reference

/-! Attribute values that are read as they are written. Every reference becomes shorter when it is
expanded, so that nothing makes up for it. -/
namespace KeyholeMarkup.Xml
open KeyholeMarkup.Text

/-- The value that a written one is read as, unless it holds a reference that stands for nothing. -/
def readValue? (written : String) : Option String :=
  (expandReferences (normalizeValue written.toList)).toOption.map String.ofList

/-- A value without references, line ends and tabs. -/
def IsVerbatim (written : String) : Prop :=
  ∀ c ∈ written.toList, c ≠ '&' ∧ c ≠ '\t' ∧ c ≠ '\n' ∧ c ≠ '\r'

instance : DecidablePred IsVerbatim := fun written => List.decidableBAll _ written.toList

namespace Expanding

/-- The number of characters held, the `&` of a reference at hand among them. -/
def size (state : Expanding) : Nat :=
  state.expanded.length + (state.reference.map (·.2.length + 1)).getD 0

variable {total : Nat} {state after : Expanding} {text : List Char}

theorem foldlM_step_of_not_mem (plain : '&' ∉ text) (total : Nat) (state : Expanding)
    (outside : state.reference = none) : ∃ after, text.foldlM (step total) state = .ok after ∧
      after.reference = none ∧ after.expanded = text.reverse ++ state.expanded := by
  induction text generalizing state with
  | nil => exact ⟨state, rfl, outside, rfl⟩
  | cons c rest ih =>
    have ordinary : c ≠ '&' := by rintro rfl; simp at plain
    obtain ⟨after, ran, ended, expanded⟩ := ih (fun member => plain (List.mem_cons_of_mem _ member))
      ⟨state.offset + c.utf8Size, none, c :: state.expanded⟩ rfl
    refine ⟨after, ?_, ended, by simp [expanded]⟩
    rw [List.foldlM_cons, step, outside]
    simpa [ordinary, bind, Except.bind] using ran

theorem size_step {c : Char} (stepped : step total state c = .ok after) :
    0 < after.size ∧ after.size ≤ state.size + 1 ∧
      (state.reference ≠ none ∨ c = '&' → after.reference = none → after.size < state.size + 1) := by
  obtain ⟨offset, reference, expanded⟩ := state
  unfold step at stepped
  cases reference with
  | none =>
    simp only at stepped
    split at stepped
    · simp only [Except.ok.injEq] at stepped
      subst stepped
      simp [size]
    · rename_i ordinary
      simp only [Except.ok.injEq] at stepped
      subst stepped
      simp [size, ordinary]
  | some pending =>
    simp only at stepped
    split at stepped
    · cases resolved : resolveReference (pending.1 + 1) offset pending.2.reverse with
      | error fault => simp [resolved, bind, Except.bind] at stepped
      | ok character =>
        simp only [resolved, bind, Except.bind, pure, Except.pure, Except.ok.injEq] at stepped
        subst stepped
        simp only [size, List.length_cons, Option.map_none, Option.getD_none, Option.map_some,
          Option.getD_some]
        omega
    split at stepped
    · contradiction
    · simp only [Except.ok.injEq] at stepped
      subst stepped
      simp [size]
      omega

/-- A reference that has been expanded holds fewer characters than before. -/
theorem size_foldlM (ran : text.foldlM (step total) state = .ok after)
    (ended : after.reference = none) : after.size ≤ state.size + text.length ∧
      (state.reference ≠ none ∨ '&' ∈ text → after.size < state.size + text.length) := by
  induction text generalizing state with
  | nil =>
    simp only [List.foldlM_nil, pure, Except.pure, Except.ok.injEq] at ran
    subst ran
    simp [ended]
  | cons c rest ih =>
    rw [List.foldlM_cons] at ran
    cases stepped : step total state c with
    | error fault => simp [stepped, bind, Except.bind] at ran
    | ok next =>
    simp only [stepped, bind, Except.bind] at ran
    obtain ⟨bound, strict⟩ := ih ran
    obtain ⟨-, first, shrinks⟩ := size_step stepped
    rw [List.length_cons]
    refine ⟨by omega, fun referring => ?_⟩
    by_cases later : next.reference ≠ none ∨ '&' ∈ rest
    · have := strict later
      omega
    · -- The reference at hand ends with this character.
      simp only [ne_eq, not_or, Decidable.not_not] at later
      have here : state.reference ≠ none ∨ c = '&' := by
        refine referring.imp_right fun member => ?_
        exact ((List.mem_cons.mp member).resolve_right later.2).symm
      have := shrinks here later.1
      omega

/-- Something is held once a character has been read. -/
theorem size_pos (ran : text.foldlM (step total) state = .ok after)
    (begun : 0 < state.size ∨ text ≠ []) : 0 < after.size := by
  induction text generalizing state with
  | nil =>
    simp only [List.foldlM_nil, pure, Except.pure, Except.ok.injEq] at ran
    subst ran
    simpa using begun
  | cons c rest ih =>
    rw [List.foldlM_cons] at ran
    cases stepped : step total state c with
    | error fault => simp [stepped, bind, Except.bind] at ran
    | ok next =>
    simp only [stepped, bind, Except.bind] at ran
    exact ih ran (.inl (size_step stepped).1)

end Expanding

theorem expandReferences_eq_self {text : List Char} (plain : '&' ∉ text) :
    expandReferences text = .ok text := by
  obtain ⟨after, ran, ended, expanded⟩ :=
    Expanding.foldlM_step_of_not_mem plain (byteLength text) ⟨0, none, []⟩ rfl
  simp [expandReferences, ran, ended, expanded, bind, Except.bind, pure, Except.pure]

theorem length_expandReferences {text expanded : List Char}
    (read : expandReferences text = .ok expanded) : expanded.length ≤ text.length ∧
      ('&' ∈ text → expanded.length < text.length) ∧ (text ≠ [] → expanded ≠ []) := by
  unfold expandReferences at read
  cases ran : text.foldlM (Expanding.step (byteLength text)) ⟨0, none, []⟩ with
  | error fault => simp [ran, bind, Except.bind] at read
  | ok after =>
  simp only [ran, bind, Except.bind, pure, Except.pure] at read
  split at read
  · contradiction
  rename_i ended
  simp only [Except.ok.injEq] at read
  subst read
  obtain ⟨bound, strict⟩ := Expanding.size_foldlM ran ended
  have filled := fun begun => Expanding.size_pos ran (.inr begun)
  simp only [Expanding.size, ended, Option.map_none, Option.getD_none, List.length_nil,
    Nat.zero_add, Nat.add_zero] at bound strict filled
  rw [List.length_reverse]
  refine ⟨bound, fun member => strict (.inr member), fun begun => ?_⟩
  exact List.reverse_ne_nil_iff.mpr (List.length_pos_iff.mp (filled begun))

theorem length_normalizeLineEnds (text : List Char) :
    (normalizeLineEnds text).length ≤ text.length := by
  fun_induction normalizeLineEnds text <;> simp <;> omega

theorem isVerbatim_iff {written : String} : IsVerbatim written ↔
    '&' ∉ written.toList ∧ normalizeValue written.toList = written.toList := by
  rw [normalizeValue_eq_self_iff]
  constructor
  · intro verbatim
    refine ⟨fun member => ?_, fun member => ?_, fun member => ?_, fun member => ?_⟩
    · exact (verbatim _ member).1 rfl
    · exact (verbatim _ member).2.2.2 rfl
    · exact (verbatim _ member).2.2.1 rfl
    · exact (verbatim _ member).2.1 rfl
  · rintro ⟨reference, turn, feed, tab⟩ c member
    refine ⟨?_, ?_, ?_, ?_⟩ <;> rintro rfl <;> contradiction

/-- A value is read as it is written exactly if it holds no references, line ends and tabs. -/
theorem readValue?_eq_some_self_iff {written : String} :
    readValue? written = some written ↔ IsVerbatim written := by
  rw [isVerbatim_iff]
  constructor
  · intro same
    unfold readValue? at same
    cases read : expandReferences (normalizeValue written.toList) with
    | error fault => simp [read, Except.toOption] at same
    | ok expanded =>
    obtain rfl : expanded = written.toList := by
      have whole : String.ofList expanded = written := by simpa [read, Except.toOption] using same
      rw [← whole, String.toList_ofList]
    obtain ⟨bound, strict, -⟩ := length_expandReferences read
    have shorter : (normalizeValue written.toList).length ≤ written.toList.length := by
      rw [normalizeValue, List.length_map]
      exact length_normalizeLineEnds _
    have plain : '&' ∉ normalizeValue written.toList := fun member => by
      have := strict member
      omega
    have unchanged : normalizeValue written.toList = written.toList := by
      simpa [expandReferences_eq_self plain] using read
    exact ⟨unchanged ▸ plain, unchanged⟩
  · rintro ⟨plain, unchanged⟩
    simp [readValue?, unchanged, expandReferences_eq_self plain, Except.toOption]

theorem normalizeValue_ne_nil {written : List Char} (nonempty : written ≠ []) :
    normalizeValue written ≠ [] := by
  rw [normalizeValue, ne_eq, List.map_eq_nil_iff]
  revert nonempty
  fun_cases normalizeLineEnds written <;> simp

theorem readValue?_ne_empty {written : String} (nonempty : written ≠ "") :
    readValue? written ≠ some "" := by
  intro same
  unfold readValue? at same
  cases read : expandReferences (normalizeValue written.toList) with
  | error fault => simp [read, Except.toOption] at same
  | ok expanded =>
  have empty : expanded = [] := by simpa [read, Except.toOption] using same
  exact (length_expandReferences read).2.2 (normalizeValue_ne_nil (by simpa using nonempty)) empty

end KeyholeMarkup.Xml

import KeyholeMarkup.Proofs.Xml.Reference
import Mathlib.Data.List.Induction
import Mathlib.Tactic.IntervalCases

/-! What characters stand for as they are written. The rules for line ends and for references are
stated here as relations, apart from the functions that carry them out. -/
namespace KeyholeMarkup.Xml
open KeyholeMarkup.Text

/-- A text, and the same text with each of its line ends, a carriage return with or without a line
feed behind it, as one line feed. -/
inductive LineEndsNormalized : List Char → List Char → Prop
  | nil : LineEndsNormalized [] []
  | both {raw text} : LineEndsNormalized raw text →
    LineEndsNormalized ('\r' :: '\n' :: raw) ('\n' :: text)
  | carriageReturn {raw text} : raw.head? ≠ some '\n' → LineEndsNormalized raw text →
    LineEndsNormalized ('\r' :: raw) ('\n' :: text)
  | other {c raw text} : c ≠ '\r' → LineEndsNormalized raw text →
    LineEndsNormalized (c :: raw) (c :: text)

theorem lineEndsNormalized_normalizeLineEnds (raw : List Char) :
    LineEndsNormalized raw (normalizeLineEnds raw) := by
  fun_induction normalizeLineEnds raw with
  | case1 rest ih => exact .both ih
  | case2 rest alone ih =>
    refine .carriageReturn (fun head => ?_) ih
    obtain ⟨others, same⟩ := List.head?_eq_some_iff.mp head
    exact alone others same
  | case3 c rest _ other ih => exact .other (fun same => other same) ih
  | case4 => exact .nil

theorem lineEndsNormalized_iff {raw text : List Char} :
    LineEndsNormalized raw text ↔ text = normalizeLineEnds raw := by
  constructor
  · intro normalized
    induction normalized with
    | nil => rfl
    | both _ ih => rw [normalizeLineEnds, ← ih]
    | @carriageReturn raw _ alone _ ih =>
      have unfed : ∀ others, raw ≠ '\n' :: others := fun others same => alone (by rw [same]; rfl)
      rw [normalizeLineEnds.eq_2 _ unfed, ← ih]
    | other ordinary _ ih =>
      rw [normalizeLineEnds.eq_3 _ _ (fun _ same _ => ordinary same) ordinary, ← ih]
  · rintro rfl
    exact lineEndsNormalized_normalizeLineEnds raw

theorem lineEndsNormalized_ofList (raw : List Char) :
    LineEndsNormalized raw (String.ofList (normalizeLineEnds raw)).toList := by
  rw [String.toList_ofList]
  exact lineEndsNormalized_normalizeLineEnds raw

/-- A digit and its value. Letters, small or capital, stand for ten and more. -/
def IsDigit (radix : Nat) (c : Char) (digit : Nat) : Prop :=
  digit < radix ∧ (c = Nat.digitChar digit ∨ c = (Nat.digitChar digit).toUpper)

/-- Digits and their number. -/
inductive Numeral (radix : Nat) : List Char → Nat → Prop
  | empty : Numeral radix [] 0
  | more {digits number c digit} : Numeral radix digits number → IsDigit radix c digit →
    Numeral radix (digits ++ [c]) (number * radix + digit)

/-- The name of a reference and the character that it stands for. -/
inductive Refers : List Char → Char → Prop
  | lessThan : Refers "lt".toList '<'
  | greaterThan : Refers "gt".toList '>'
  | ampersand : Refers "amp".toList '&'
  | apostrophe : Refers "apos".toList '\''
  | quotationMark : Refers "quot".toList '"'
  | decimal {digits c} : digits ≠ [] → Numeral 10 digits c.toNat → c.toNat ≠ 0 →
    Refers ('#' :: digits) c
  | hexadecimal {digits c} : digits ≠ [] → Numeral 16 digits c.toNat → c.toNat ≠ 0 →
    Refers ('#' :: 'x' :: digits) c

/-- A text, and the same text with a character in place of each reference. -/
inductive Expanded : List Char → List Char → Prop
  | nil : Expanded [] []
  | plain {c raw text} : c ≠ '&' → Expanded raw text → Expanded (c :: raw) (c :: text)
  | reference {name c raw text} : Refers name c → Expanded raw text →
    Expanded ('&' :: name ++ ';' :: raw) (c :: text)

/-- An attribute value as it is written and as it is read. Line ends and tabs are spaces in it, unless
they are written by reference. -/
def ValueRead (raw value : List Char) : Prop :=
  ∃ lines, LineEndsNormalized raw lines ∧
    Expanded (lines.map fun c => if c = '\n' ∨ c = '\t' then ' ' else c) value

section Numbers

variable {radix digit number : Nat} {c : Char} {digits : List Char}

theorem isDigit_of_digitValue? (read : digitValue? radix c = some digit) : IsDigit radix c digit := by
  have rebuilt : c = Char.ofNat c.toNat := (Char.ofNat_toNat c).symm
  simp only [digitValue?, Option.filter_eq_some_iff, Char.le_def, UInt32.le_iff_toNat_le,
    decide_eq_true_eq] at read
  obtain ⟨value, small⟩ := read
  refine ⟨small, ?_⟩
  change (if 48 ≤ c.toNat ∧ c.toNat ≤ 57 then some (c.toNat - 48)
    else if 97 ≤ c.toNat ∧ c.toNat ≤ 102 then some (c.toNat - 97 + 10)
    else if 65 ≤ c.toNat ∧ c.toNat ≤ 70 then some (c.toNat - 65 + 10) else none) =
      some digit at value
  rw [rebuilt]
  generalize c.toNat = code at value
  split at value
  · obtain ⟨low, high⟩ := ‹48 ≤ code ∧ code ≤ 57›
    obtain rfl := Option.some.inj value
    interval_cases code <;> decide
  split at value
  · obtain ⟨low, high⟩ := ‹97 ≤ code ∧ code ≤ 102›
    obtain rfl := Option.some.inj value
    interval_cases code <;> decide
  split at value
  · obtain ⟨low, high⟩ := ‹65 ≤ code ∧ code ≤ 70›
    obtain rfl := Option.some.inj value
    interval_cases code <;> decide
  · cases value

theorem digitValue?_of_isDigit (small : radix ≤ 16) (isDigit : IsDigit radix c digit) :
    digitValue? radix c = some digit := by
  have values : ∀ d < 16, digitValue? 16 (Nat.digitChar d) = some d ∧
      digitValue? 16 (Nat.digitChar d).toUpper = some d := by decide
  obtain ⟨bound, written⟩ := isDigit
  obtain ⟨lower, upper⟩ := values digit (Nat.lt_of_lt_of_le bound small)
  have read : digitValue? 16 c = some digit := by
    obtain rfl | rfl := written
    · exact lower
    · exact upper
  simp only [digitValue?, Option.filter_eq_some_iff] at read ⊢
  exact ⟨read.1, by simpa using bound⟩

/-- One digit more of a number of 32 bits. -/
def readDigit (radix number : Nat) (c : Char) : Except ReferenceFault Nat :=
  match digitValue? radix c with
  | none => .error .invalidDigit
  | some digit =>
    if number * radix + digit < UInt32.size then .ok (number * radix + digit)
    else .error .numberTooLarge

theorem foldlM_readDigit_iff (positive : 0 < radix) (small : radix ≤ 16) :
    digits.foldlM (readDigit radix) 0 = .ok number ↔
      Numeral radix digits number ∧ number < UInt32.size := by
  induction digits using List.reverseRecOn generalizing number with
  | nil =>
    constructor
    · intro read
      cases read
      exact ⟨.empty, by decide⟩
    · rintro ⟨numeral, -⟩
      generalize written : ([] : List Char) = digits at numeral
      cases numeral with
      | empty => rfl
      | more _ _ => simp at written
  | append_singleton digits c ih =>
    rw [List.foldlM_append]
    constructor
    · intro read
      cases first : digits.foldlM (readDigit radix) 0 with
      | error fault => simp [first, bind, Except.bind] at read
      | ok before =>
        simp only [first, bind, Except.bind, List.foldlM_cons, List.foldlM_nil, pure, Except.pure,
          readDigit] at read
        cases value : digitValue? radix c with
        | none => simp [value] at read
        | some digit =>
          by_cases fits : before * radix + digit < UInt32.size
          · simp only [value, if_pos fits, Except.ok.injEq] at read
            subst read
            exact ⟨.more (ih.mp first).1 (isDigit_of_digitValue? value), fits⟩
          · simp [value, fits] at read
    · rintro ⟨numeral, fits⟩
      generalize written : digits ++ [c] = whole at numeral
      cases numeral with
      | empty => simp at written
      | @more digits' before c' digit numeral isDigit =>
        obtain ⟨rfl, rfl⟩ := List.append_singleton_inj.mp written
        have less : before ≤ before * radix := Nat.le_mul_of_pos_right before positive
        rw [ih.mpr ⟨numeral, by omega⟩]
        simp [bind, Except.bind, readDigit, digitValue?_of_isDigit small isDigit, fits, pure,
          Except.pure]

theorem Numeral.head_isDigit {first : Char} (numeral : Numeral radix (first :: digits) number) :
    ∃ digit, IsDigit radix first digit := by
  generalize written : first :: digits = whole at numeral
  induction numeral generalizing digits with
  | empty => cases written
  | @more before _ c _ numeral isDigit ih =>
    cases before with
    | nil =>
      obtain ⟨rfl, -⟩ := List.cons.inj written
      exact ⟨_, isDigit⟩
    | cons second others =>
      obtain ⟨rfl, -⟩ := List.cons.inj written
      exact ih rfl

theorem readNumber_iff (positive : 0 < radix) (small : radix ≤ 16) :
    readNumber radix digits = .ok number ↔
      digits ≠ [] ∧ Numeral radix digits number ∧ number < UInt32.size := by
  cases digits with
  | nil => simp [readNumber]
  | cons first rest =>
    have folded : readNumber radix (first :: rest) =
        if first = '+' ∨ first = '-' then .error .signedNumber
        else (first :: rest).foldlM (readDigit radix) 0 := rfl
    rw [folded, ← foldlM_readDigit_iff positive small]
    split
    · rename_i signed
      have unread : digitValue? 16 first = none := by obtain rfl | rfl := signed <;> rfl
      simp only [reduceCtorEq, ne_eq, not_false_eq_true, true_and, false_iff]
      rw [foldlM_readDigit_iff positive small]
      rintro ⟨numeral, -⟩
      obtain ⟨digit, bound, written⟩ := numeral.head_isDigit
      rw [digitValue?_of_isDigit (Nat.le_refl 16) ⟨by omega, written⟩] at unread
      cases unread
    · simp

theorem toNat_ofNat_of_isValidChar {code : Nat} (valid : code.isValidChar) :
    (Char.ofNat code).toNat = code := by
  rw [Char.ofNat, dif_pos valid]
  rfl

theorem characterOfCode_iff {code : Nat} :
    characterOfCode code = .ok c ↔ code = c.toNat ∧ code ≠ 0 := by
  unfold characterOfCode
  split
  · rename_i zero
    simp [zero]
  · rename_i nonzero
    split
    · rename_i valid
      rw [Except.ok.injEq]
      constructor
      · rintro rfl
        exact ⟨(toNat_ofNat_of_isValidChar valid).symm, nonzero⟩
      · rintro ⟨rfl, -⟩
        exact Char.ofNat_toNat c
    · rename_i invalid
      simp only [reduceCtorEq, false_iff, not_and]
      rintro rfl
      exact absurd c.valid invalid

theorem toNat_lt_size (c : Char) : c.toNat < UInt32.size := c.val.toNat_lt

theorem characterOfNumber_iff (positive : 0 < radix) (small : radix ≤ 16) :
    (readNumber radix digits).bind characterOfCode = .ok c ↔
      digits ≠ [] ∧ Numeral radix digits c.toNat ∧ c.toNat ≠ 0 := by
  constructor
  · intro read
    cases numbered : readNumber radix digits with
    | error fault => simp [numbered, Except.bind] at read
    | ok code =>
      rw [numbered] at read
      obtain ⟨rfl, nonzero⟩ := characterOfCode_iff.mp read
      obtain ⟨written, numeral, -⟩ := (readNumber_iff positive small).mp numbered
      exact ⟨written, numeral, nonzero⟩
  · rintro ⟨written, numeral, nonzero⟩
    rw [(readNumber_iff positive small).mpr ⟨written, numeral, toNat_lt_size c⟩]
    exact characterOfCode_iff.mpr ⟨rfl, nonzero⟩

/-- No decimal numeral begins with the mark of a hexadecimal one. -/
theorem resolveReference_decimal {start stop : Nat} (numeral : Numeral 10 digits number) :
    resolveReference start stop ('#' :: digits) = (readNumber 10 digits).bind characterOfCode := by
  unfold resolveReference
  split
  · rename_i others same
    obtain rfl := (List.cons.inj same).2
    obtain ⟨digit, isDigit⟩ := numeral.head_isDigit
    have unread : digitValue? 10 'x' = none := rfl
    rw [digitValue?_of_isDigit (by decide) isDigit] at unread
    cases unread
  · rename_i others _ same
    rw [(List.cons.inj same).2]
    rfl
  · rename_i other
    exact absurd rfl (other _)

theorem resolveReference_iff {start stop : Nat} {name : List Char} :
    resolveReference start stop name = .ok c ↔ Refers name c := by
  constructor
  · intro resolved
    unfold resolveReference at resolved
    split at resolved
    · obtain ⟨written, numeral, nonzero⟩ :=
        (characterOfNumber_iff (by decide) (by decide)).mp resolved
      exact .hexadecimal written numeral nonzero
    · obtain ⟨written, numeral, nonzero⟩ :=
        (characterOfNumber_iff (by decide) (by decide)).mp resolved
      exact .decimal written numeral nonzero
    · repeat' split at resolved
      all_goals cases resolved
      all_goals subst_vars
      · exact .lessThan
      · exact .greaterThan
      · exact .ampersand
      · exact .apostrophe
      · exact .quotationMark
  · intro refers
    cases refers with
    | decimal written numeral nonzero =>
      rw [resolveReference_decimal numeral]
      exact (characterOfNumber_iff (by decide) (by decide)).mpr ⟨written, numeral, nonzero⟩
    | hexadecimal written numeral nonzero =>
      exact (characterOfNumber_iff (by decide) (by decide)).mpr ⟨written, numeral, nonzero⟩
    | _ => rfl

theorem Numeral.isDigit_of_mem (numeral : Numeral radix digits number) (member : c ∈ digits) :
    ∃ digit, IsDigit radix c digit := by
  induction numeral with
  | empty => cases member
  | more _ isDigit ih =>
    obtain earlier | last := List.mem_append.mp member
    · exact ih earlier
    · rw [List.mem_singleton.mp last]
      exact ⟨_, isDigit⟩

theorem Numeral.not_mem (small : radix ≤ 16) (numeral : Numeral radix digits number)
    (other : digitValue? 16 c = none) : c ∉ digits := by
  intro member
  obtain ⟨digit, bound, written⟩ := numeral.isDigit_of_mem member
  rw [digitValue?_of_isDigit (Nat.le_refl 16) ⟨Nat.lt_of_lt_of_le bound small, written⟩] at other
  cases other

end Numbers

section References

variable {c : Char} {raw text name : List Char}

/-- A name ends at the first semicolon. -/
theorem Refers.not_mem (refers : Refers name c) : ';' ∉ name ∧ '&' ∉ name := by
  have apart {radix number : Nat} {digits : List Char} (small : radix ≤ 16)
      (numeral : Numeral radix digits number) : ';' ∉ digits ∧ '&' ∉ digits :=
    ⟨numeral.not_mem small rfl, numeral.not_mem small rfl⟩
  cases refers with
  | decimal _ numeral _ => simpa using apart (by decide) numeral
  | hexadecimal _ numeral _ => simpa using apart (by decide) numeral
  | _ => decide

theorem foldlM_name (plain : ';' ∉ name ∧ '&' ∉ name) (total start offset : Nat)
    (before expanded : List Char) : ∃ next,
      name.foldlM (Expanding.step total) ⟨offset, some (start, before), expanded⟩ =
        .ok ⟨next, some (start, name.reverse ++ before), expanded⟩ := by
  induction name generalizing offset before with
  | nil => exact ⟨offset, rfl⟩
  | cons c rest ih =>
    simp only [List.mem_cons, not_or] at plain
    obtain ⟨⟨semicolon, restSemicolon⟩, ampersand, restAmpersand⟩ := plain
    obtain ⟨next, others⟩ := ih ⟨restSemicolon, restAmpersand⟩ (offset + c.utf8Size) (c :: before)
    refine ⟨next, ?_⟩
    rw [List.foldlM_cons, Expanding.step]
    simpa [Ne.symm semicolon, Ne.symm ampersand, bind, Except.bind] using others

theorem foldlM_of_expanded (expands : Expanded raw text) (total offset : Nat)
    (expanded : List Char) : ∃ next, raw.foldlM (Expanding.step total) ⟨offset, none, expanded⟩ =
      .ok ⟨next, none, text.reverse ++ expanded⟩ := by
  induction expands generalizing offset expanded with
  | nil => exact ⟨offset, rfl⟩
  | @plain c raw text ordinary _ ih =>
    obtain ⟨next, others⟩ := ih (offset + c.utf8Size) (c :: expanded)
    refine ⟨next, ?_⟩
    rw [List.foldlM_cons, Expanding.step]
    simpa [ordinary, bind, Except.bind] using others
  | @reference name c raw text refers _ ih =>
    have begun : Expanding.step total ⟨offset, none, expanded⟩ '&' =
        .ok ⟨offset + '&'.utf8Size, some (offset, []), expanded⟩ := rfl
    obtain ⟨middle, named⟩ :=
      foldlM_name refers.not_mem total offset (offset + '&'.utf8Size) [] expanded
    rw [List.append_nil] at named
    have resolved : Expanding.step total ⟨middle, some (offset, name.reverse), expanded⟩ ';' =
        .ok ⟨middle + ';'.utf8Size, none, c :: expanded⟩ := by
      have stands : resolveReference (offset + 1) middle name = .ok c :=
        resolveReference_iff.mpr refers
      simp [Expanding.step, stands, bind, Except.bind, pure, Except.pure]
    obtain ⟨next, others⟩ := ih (middle + ';'.utf8Size) (c :: expanded)
    refine ⟨next, ?_⟩
    simp only [List.cons_append, List.foldlM_cons, List.foldlM_append, begun, named, resolved, bind,
      Except.bind]
    simpa using others

/-- What the rest of a text is expanded to: a reference that is open comes first. -/
def Expanding.Continues (state : Expanding) (raw result : List Char) : Prop :=
  match state.reference with
  | none => ∃ text, Expanded raw text ∧ result = text.reverse ++ state.expanded
  | some (_, before) => ∃ name c rest text, raw = name ++ ';' :: rest ∧
      Refers (before.reverse ++ name) c ∧ Expanded rest text ∧
      result = text.reverse ++ c :: state.expanded

theorem Expanding.Continues.step {state after : Expanding} {total : Nat} {result : List Char}
    (stepped : state.step total c = .ok after) (continues : after.Continues raw result) :
    state.Continues (c :: raw) result := by
  obtain ⟨offset, reference, expanded⟩ := state
  cases reference with
  | none =>
    by_cases ampersand : c = '&'
    · subst ampersand
      cases stepped
      obtain ⟨name, c, rest, text, rfl, refers, expands, whole⟩ := continues
      exact ⟨c :: text, .reference refers expands, by simp [whole]⟩
    · simp only [Expanding.step, if_neg ampersand, Except.ok.injEq] at stepped
      subst stepped
      obtain ⟨text, expands, whole⟩ := continues
      exact ⟨c :: text, .plain ampersand expands, by simp [whole]⟩
  | some reference =>
    obtain ⟨start, before⟩ := reference
    by_cases semicolon : c = ';'
    · subst semicolon
      cases resolved : resolveReference (start + 1) offset before.reverse with
      | error fault => simp [Expanding.step, resolved, bind, Except.bind] at stepped
      | ok character =>
        simp only [Expanding.step, resolved, ↓reduceIte, bind, Except.bind, pure, Except.pure,
          Except.ok.injEq] at stepped
        subst stepped
        obtain ⟨text, expands, whole⟩ := continues
        have refers := resolveReference_iff.mp resolved
        exact ⟨[], character, raw, text, rfl, by rwa [List.append_nil], expands, whole⟩
    · by_cases ampersand : c = '&'
      · simp [Expanding.step, ampersand] at stepped
      · simp only [Expanding.step, if_neg semicolon, if_neg ampersand, Except.ok.injEq] at stepped
        subst stepped
        obtain ⟨name, character, rest, text, rfl, refers, expands, whole⟩ := continues
        exact ⟨c :: name, character, rest, text, rfl, by simpa using refers, expands, whole⟩

theorem continues_of_foldlM {state : Expanding} {total next : Nat} {result : List Char}
    (ran : raw.foldlM (Expanding.step total) state = .ok ⟨next, none, result⟩) :
    state.Continues raw result := by
  induction raw generalizing state with
  | nil =>
    cases ran
    exact ⟨[], .nil, rfl⟩
  | cons c raw ih =>
    rw [List.foldlM_cons] at ran
    cases stepped : Expanding.step total state c with
    | error fault => simp [stepped, bind, Except.bind] at ran
    | ok after =>
      simp only [stepped, bind, Except.bind] at ran
      exact (ih ran).step stepped

theorem expanded_iff : Expanded raw text ↔ expandReferences raw = .ok text := by
  constructor
  · intro expands
    obtain ⟨next, ran⟩ := foldlM_of_expanded expands (byteLength raw) 0 []
    simp [expandReferences, ran, bind, Except.bind, pure, Except.pure]
  · intro read
    simp only [expandReferences, bind, Except.bind] at read
    split at read
    · cases read
    · rename_i state ran
      obtain ⟨next, reference, result⟩ := state
      cases reference with
      | some open' => cases read
      | none =>
        simp only [pure, Except.pure, Except.ok.injEq] at read
        obtain ⟨text', expands, whole⟩ := continues_of_foldlM ran
        rw [← read, whole, List.append_nil, List.reverse_reverse]
        exact expands

theorem valueRead_iff : ValueRead raw text ↔ expandReferences (normalizeValue raw) = .ok text := by
  constructor
  · rintro ⟨lines, normalized, expands⟩
    rw [lineEndsNormalized_iff.mp normalized] at expands
    exact expanded_iff.mp expands
  · intro read
    exact ⟨_, lineEndsNormalized_normalizeLineEnds raw, expanded_iff.mpr read⟩

end References

end KeyholeMarkup.Xml

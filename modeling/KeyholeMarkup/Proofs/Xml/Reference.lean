import KeyholeMarkup.Xml.Markup

/-! Text survives its way through markup. Escaping is undone by expansion, and the sections that a
text is split into make it up again. -/
namespace KeyholeMarkup.Xml
open KeyholeMarkup.Text

/-- The characters that are written by reference. -/
def isSpecial (c : Char) : Bool := c == '&' || c == '<' || c == '>' || c == '\'' || c == '"'

theorem escapeChar_of_not_isSpecial {c : Char} (plain : isSpecial c = false) :
    escapeChar c = [c] := by
  simp only [isSpecial, Bool.or_eq_false_iff, beq_eq_false_iff_ne] at plain
  simp [escapeChar, plain]

theorem escape_eq_self {text : List Char} (plain : ∀ c ∈ text, isSpecial c = false) :
    escape text = text := by
  induction text with
  | nil => rfl
  | cons c rest ih =>
    rw [escape, List.flatMap_cons, escapeChar_of_not_isSpecial (plain c (by simp))]
    exact congrArg (c :: ·) (ih fun d member => plain d (by simp [member]))

theorem mem_escapeChar {c d : Char} (member : d ∈ escapeChar c) :
    d = c ∧ isSpecial c = false ∨ d ∈ ['&', 'a', 'm', 'p', ';', 'l', 't', 'g', 'o', 's', 'q', 'u'] := by
  cases special : isSpecial c with
  | false =>
    rw [escapeChar_of_not_isSpecial special] at member
    exact .inl ⟨by simpa using member, rfl⟩
  | true =>
    right
    simp only [isSpecial, Bool.or_eq_true, beq_iff_eq] at special
    obtain (((rfl | rfl) | rfl) | rfl) | rfl := special <;> revert member <;>
      simp only [escapeChar] <;> simp <;> grind

theorem mem_escape {text : List Char} {d : Char} (member : d ∈ escape text) :
    d ∈ text ∧ isSpecial d = false ∨
      d ∈ ['&', 'a', 'm', 'p', ';', 'l', 't', 'g', 'o', 's', 'q', 'u'] := by
  obtain ⟨c, inText, inChar⟩ := List.mem_flatMap.mp member
  obtain ⟨rfl, plain⟩ | reference := mem_escapeChar inChar
  · exact .inl ⟨inText, plain⟩
  · exact .inr reference

theorem not_mem_escape (text : List Char) {d : Char} (bad : d ∈ ['<', '>', '\'', '"']) :
    d ∉ escape text := by
  intro member
  obtain ⟨-, plain⟩ | reference := mem_escape member
  · revert plain
    simp only [List.mem_cons, List.not_mem_nil, or_false] at bad
    rcases bad with rfl | rfl | rfl | rfl <;> decide
  · revert reference
    simp only [List.mem_cons, List.not_mem_nil, or_false] at bad
    rcases bad with rfl | rfl | rfl | rfl <;> decide

theorem escape_ne_nil {text : List Char} (kept : text ≠ []) : escape text ≠ [] := by
  cases text with
  | nil => exact absurd rfl kept
  | cons c rest =>
    have head : escapeChar c ≠ [] := by
      unfold escapeChar
      repeat' split
      all_goals simp
    simp [escape, head]

theorem foldlM_escapeChar (total offset : Nat) (expanded : List Char) (c : Char) :
    ∃ next, (escapeChar c).foldlM (Expanding.step total) ⟨offset, none, expanded⟩ =
      .ok ⟨next, none, c :: expanded⟩ := by
  cases special : isSpecial c with
  | false =>
    have ordinary : c ≠ '&' := by rintro rfl; exact absurd special (by decide)
    rw [escapeChar_of_not_isSpecial special]
    refine ⟨offset + c.utf8Size, ?_⟩
    rw [List.foldlM_cons]
    simp only [Expanding.step, if_neg ordinary]
    rfl
  | true =>
    simp only [isSpecial, Bool.or_eq_true, beq_iff_eq] at special
    obtain (((rfl | rfl) | rfl) | rfl) | rfl := special <;> exact ⟨_, rfl⟩

theorem foldlM_escape (total : Nat) (text : List Char) :
    ∀ offset expanded, ∃ next,
      (escape text).foldlM (Expanding.step total) ⟨offset, none, expanded⟩ =
        .ok ⟨next, none, text.reverse ++ expanded⟩ := by
  induction text with
  | nil => exact fun offset _ => ⟨offset, rfl⟩
  | cons c rest ih =>
    intro offset expanded
    obtain ⟨middle, first⟩ := foldlM_escapeChar total offset expanded c
    obtain ⟨next, others⟩ := ih middle (c :: expanded)
    refine ⟨next, ?_⟩
    rw [escape, List.flatMap_cons, List.foldlM_append, first]
    simpa [bind, Except.bind, escape] using others

theorem expandReferences_escape (text : List Char) : expandReferences (escape text) = .ok text := by
  obtain ⟨next, expanded⟩ := foldlM_escape (byteLength (escape text)) text 0 []
  simp [expandReferences, expanded, bind, Except.bind, pure, Except.pure]

theorem not_mem_normalizeLineEnds (text : List Char) : '\r' ∉ normalizeLineEnds text := by
  fun_induction normalizeLineEnds text with
  | case1 rest ih => simpa using ih
  | case2 rest _ ih => simpa using ih
  | case3 c rest _ other ih =>
    rw [List.mem_cons, not_or]
    exact ⟨fun same => other same.symm, ih⟩
  | case4 => simp

theorem normalizeLineEnds_eq_self_iff {text : List Char} :
    normalizeLineEnds text = text ↔ '\r' ∉ text := by
  constructor
  · intro same
    rw [← same]
    exact not_mem_normalizeLineEnds text
  · intro clean
    fun_induction normalizeLineEnds text with
    | case1 rest ih => simp at clean
    | case2 rest _ ih => simp at clean
    | case3 c rest _ _ ih => simp [ih (by simp_all)]
    | case4 => rfl

/-- Line ends are normalized part by part, as long as no part ends within one. -/
theorem normalizeLineEnds_append {first second : List Char}
    (apart : first.getLast? = some '\r' → second.head? ≠ some '\n') :
    normalizeLineEnds (first ++ second) = normalizeLineEnds first ++ normalizeLineEnds second := by
  have apart_of_cons {c : Char} {rest : List Char}
      (apart : (c :: rest).getLast? = some '\r' → second.head? ≠ some '\n') :
      rest.getLast? = some '\r' → second.head? ≠ some '\n' := by
    intro last
    apply apart
    rw [List.getLast?_cons, last, Option.getD_some]
  fun_induction normalizeLineEnds first with
  | case1 rest ih =>
    rw [List.cons_append, List.cons_append, normalizeLineEnds, List.cons_append,
      ih (apart_of_cons (apart_of_cons apart))]
  | case2 rest alone ih =>
    have unfed : ∀ others, rest ++ second ≠ '\n' :: others := by
      intro others same
      cases rest with
      | nil => exact apart rfl (by simp [show second = '\n' :: others from same])
      | cons d more => exact alone more (by rw [(List.cons.inj same).1])
    rw [List.cons_append, normalizeLineEnds.eq_2 _ unfed, List.cons_append,
      ih (apart_of_cons apart)]
  | case3 c rest _ other ih =>
    rw [List.cons_append, normalizeLineEnds.eq_3 _ _ (fun _ same _ => other same) other,
      List.cons_append, ih (apart_of_cons apart)]
  | case4 => rfl

theorem prefix_of_normalizeLineEnds {part text : List Char} (plain : '\n' ∉ part)
    (begins : part <+: normalizeLineEnds text) : part <+: text := by
  fun_induction normalizeLineEnds text generalizing part with
  | case1 | case2 =>
    obtain rfl | ⟨others, rfl, -⟩ := List.prefix_cons_iff.mp begins
    · exact List.nil_prefix
    · simp at plain
  | case3 c rest _ _ ih =>
    obtain rfl | ⟨others, rfl, behind⟩ := List.prefix_cons_iff.mp begins
    · exact List.nil_prefix
    · have later : '\n' ∉ others := fun member => plain (List.mem_cons_of_mem _ member)
      exact List.cons_prefix_cons.mpr ⟨rfl, ih later behind⟩
  | case4 => exact begins

/-- Normalization brings nothing together but line ends. -/
theorem infix_of_normalizeLineEnds {part text : List Char} (plain : '\n' ∉ part)
    (inside : part <:+: normalizeLineEnds text) : part <:+: text := by
  have begins := @prefix_of_normalizeLineEnds part text plain
  fun_induction normalizeLineEnds text with
  | case1 rest ih =>
    obtain start | later := List.infix_cons_iff.mp inside
    · exact (begins start).isInfix
    · exact ((ih later (prefix_of_normalizeLineEnds plain)).trans
        (List.suffix_cons _ _).isInfix).trans (List.suffix_cons _ _).isInfix
  | case2 rest _ ih =>
    obtain start | later := List.infix_cons_iff.mp inside
    · exact (begins start).isInfix
    · exact (ih later (prefix_of_normalizeLineEnds plain)).trans (List.suffix_cons _ _).isInfix
  | case3 c rest _ _ ih =>
    obtain start | later := List.infix_cons_iff.mp inside
    · exact (begins start).isInfix
    · exact (ih later (prefix_of_normalizeLineEnds plain)).trans (List.suffix_cons _ _).isInfix
  | case4 => exact inside

theorem normalizeLineEnds_escapeChar (c : Char) (ordinary : c ≠ '\r') :
    normalizeLineEnds (escapeChar c) = escapeChar c := by
  apply normalizeLineEnds_eq_self_iff.mpr
  intro member
  obtain ⟨same, -⟩ | reference := mem_escapeChar member
  · exact ordinary same.symm
  · revert reference
    decide

theorem head?_escape_ne {text : List Char} (other : text.head? ≠ some '\n') :
    (escape text).head? ≠ some '\n' := by
  cases text with
  | nil => simp [escape]
  | cons c rest =>
    intro head
    obtain ⟨others, begins⟩ : ∃ others, escape (c :: rest) = '\n' :: others := by
      cases escaped : escape (c :: rest) with
      | nil => simp [escaped] at head
      | cons d others => exact ⟨others, by simpa [escaped] using head⟩
    cases special : isSpecial c with
    | false =>
      rw [escape, List.flatMap_cons, escapeChar_of_not_isSpecial special] at begins
      exact other (by rw [(List.cons.inj begins).1]; rfl)
    | true =>
      simp only [isSpecial, Bool.or_eq_true, beq_iff_eq] at special
      obtain (((rfl | rfl) | rfl) | rfl) | rfl := special <;> simp [escape, escapeChar] at begins

/-- Escaping neither makes nor hides line ends. -/
theorem normalizeLineEnds_escape (text : List Char) :
    normalizeLineEnds (escape text) = escape (normalizeLineEnds text) := by
  have feed (rest : List Char) : escape ('\n' :: rest) = '\n' :: escape rest := rfl
  have turn (rest : List Char) : escape ('\r' :: rest) = '\r' :: escape rest := rfl
  fun_induction normalizeLineEnds text with
  | case1 rest ih => rw [turn, feed, normalizeLineEnds, ih, feed]
  | case2 rest alone ih =>
    have unfed : ∀ others, escape rest ≠ '\n' :: others := by
      intro others same
      have head : rest.head? ≠ some '\n' := by
        cases rest with
        | nil => simp
        | cons d more =>
          rw [List.head?_cons, Ne, Option.some.injEq]
          rintro rfl
          exact alone more rfl
      exact head?_escape_ne head (by rw [same]; rfl)
    rw [turn, normalizeLineEnds.eq_2 _ unfed, ih, feed]
  | case3 c rest _ other ih =>
    have ordinary : c ≠ '\r' := fun same => other same
    rw [escape, List.flatMap_cons, normalizeLineEnds_append, normalizeLineEnds_escapeChar c ordinary]
    · exact congrArg (escapeChar c ++ ·) ih
    · intro last
      have clean := normalizeLineEnds_eq_self_iff.mp (normalizeLineEnds_escapeChar c ordinary)
      exact absurd (List.mem_of_getLast? last) clean
  | case4 => rfl

theorem expandReferences_normalizeLineEnds_escape (text : List Char) :
    expandReferences (normalizeLineEnds (escape text)) = .ok (normalizeLineEnds text) := by
  rw [normalizeLineEnds_escape, expandReferences_escape]

theorem map_escape {change : Char → Char} (plain : ∀ c, isSpecial (change c) = isSpecial c)
    (keeps : ∀ c ∈ ['&', 'a', 'm', 'p', ';', 'l', 't', 'g', 'o', 's', 'q', 'u', '<', '>', '\'', '"'],
      change c = c) (text : List Char) : (escape text).map change = escape (text.map change) := by
  induction text with
  | nil => rfl
  | cons c rest ih =>
    have first : (escapeChar c).map change = escapeChar (change c) := by
      cases special : isSpecial c with
      | false =>
        rw [escapeChar_of_not_isSpecial special, List.map_singleton,
          escapeChar_of_not_isSpecial ((plain c).trans special)]
      | true =>
        simp only [isSpecial, Bool.or_eq_true, beq_iff_eq] at special
        obtain (((rfl | rfl) | rfl) | rfl) | rfl := special <;> simp [escapeChar, keeps]
    rw [escape, List.flatMap_cons, List.map_append, first]
    exact congrArg (escapeChar (change c) ++ ·) ih

theorem normalizeValue_escape (text : List Char) :
    normalizeValue (escape text) = escape (normalizeValue text) := by
  rw [normalizeValue, normalizeLineEnds_escape, map_escape]
  · rfl
  · intro c
    split
    · rename_i blank
      obtain rfl | rfl := blank <;> rfl
    · rfl
  · simp

theorem expandReferences_normalizeValue_escape (text : List Char) :
    expandReferences (normalizeValue (escape text)) = .ok (normalizeValue text) := by
  rw [normalizeValue_escape, expandReferences_escape]

theorem normalizeValue_eq_self_iff {text : List Char} :
    normalizeValue text = text ↔ '\r' ∉ text ∧ '\n' ∉ text ∧ '\t' ∉ text := by
  constructor
  · intro same
    have plain : ∀ c ∈ text, c ≠ '\r' ∧ c ≠ '\n' ∧ c ≠ '\t' := by
      intro c member
      rw [← same, normalizeValue, List.mem_map] at member
      obtain ⟨d, inLines, rfl⟩ := member
      split
      · decide
      · rename_i other
        rw [not_or] at other
        exact ⟨fun same => not_mem_normalizeLineEnds text (same ▸ inLines), other⟩
    exact ⟨fun member => (plain _ member).1 rfl, fun member => (plain _ member).2.1 rfl,
      fun member => (plain _ member).2.2 rfl⟩
  · rintro ⟨clean, oneLine, untabbed⟩
    rw [normalizeValue, normalizeLineEnds_eq_self_iff.mpr clean]
    refine (List.map_congr_left fun c member => ?_).trans (List.map_id _)
    rw [if_neg (by rintro (rfl | rfl) <;> contradiction), id]

theorem flatten_prepend (c : Char) (texts : List (List Char)) :
    (prepend c texts).flatten = c :: texts.flatten := by
  cases texts <;> rfl

theorem flatten_cdataSections (text : List Char) : (cdataSections text).flatten = text := by
  fun_induction cdataSections text with
  | case1 rest ih => simp [flatten_prepend, ih]
  | case2 c rest _ ih => simp [flatten_prepend, ih]
  | case3 => rfl

theorem prepend_eq (c : Char) (texts : List (List Char)) :
    prepend c texts = (c :: texts.headD []) :: texts.tail := by
  cases texts <;> rfl

theorem head?_of_mem_tail_cdataSections (text : List Char) :
    ∀ part ∈ (cdataSections text).tail, part.head? = some '>' := by
  fun_induction cdataSections text with
  | case1 rest ih =>
    intro part member
    rw [List.tail_cons, prepend_eq] at member
    obtain rfl | later := List.mem_cons.mp member
    · rfl
    · exact ih part later
  | case2 c rest _ ih =>
    rw [prepend_eq, List.tail_cons]
    exact ih
  | case3 => simp

theorem normalizeLineEnds_flatten {parts : List (List Char)}
    (apart : ∀ part ∈ parts.tail, part.head? = some '>') :
    (parts.map normalizeLineEnds).flatten = normalizeLineEnds parts.flatten := by
  induction parts with
  | nil => rfl
  | cons first others ih =>
    have unfed : others.flatten.head? ≠ some '\n' := by
      cases others with
      | nil => simp
      | cons second more =>
        have head := apart second (by simp)
        simp [List.flatten_cons, List.head?_append, head]
    rw [List.map_cons, List.flatten_cons, List.flatten_cons, normalizeLineEnds_append fun _ => unfed,
      ih fun part member => apart part (List.mem_of_mem_tail member)]

/-- No line end is cut in two when a text is split into sections. -/
theorem flatten_map_cdataSections (text : List Char) :
    ((cdataSections text).map normalizeLineEnds).flatten = normalizeLineEnds text := by
  rw [normalizeLineEnds_flatten (head?_of_mem_tail_cdataSections text), flatten_cdataSections]

theorem cdataSections_ne_nil (text : List Char) : cdataSections text ≠ [] := by
  fun_cases cdataSections text with
  | case1 rest => simp
  | case2 c rest => cases cdataSections rest <;> simp [prepend]
  | case3 => simp

theorem prefix_of_mem_head {text first : List Char} {others : List (List Char)}
    (sections : cdataSections text = first :: others) : first <+: text := by
  refine ⟨others.flatten, ?_⟩
  rw [← flatten_cdataSections text, sections, List.flatten_cons]

theorem mem_prepend {c : Char} {texts : List (List Char)} {part : List Char}
    (member : part ∈ prepend c texts) :
    (∃ first others, texts = first :: others ∧ part = c :: first) ∨ part ∈ texts ∨ part = [c] := by
  cases texts with
  | nil => exact .inr (.inr (by simpa [prepend] using member))
  | cons first others =>
    obtain rfl | later := List.mem_cons.mp member
    · exact .inl ⟨first, others, rfl, rfl⟩
    · exact .inr (.inl (List.mem_cons_of_mem _ later))

/-- No section ends early. -/
theorem not_infix_of_mem_cdataSections {text part : List Char}
    (member : part ∈ cdataSections text) : ¬ [']', ']', '>'] <:+: part := by
  fun_induction cdataSections text generalizing part with
  | case1 rest ih =>
    obtain rfl | later := List.mem_cons.mp member
    · exact fun inside => absurd inside.length_le (by simp)
    · obtain ⟨first, others, sections, rfl⟩ | inRest | rfl := mem_prepend later
      · intro inside
        obtain start | inFirst := List.infix_cons_iff.mp inside
        · simp at start
        · exact ih (by simp [sections]) inFirst
      · exact ih inRest
      · exact fun inside => absurd inside.length_le (by simp)
  | case2 c rest apart ih =>
    obtain ⟨first, others, sections, rfl⟩ | inRest | rfl := mem_prepend member
    · intro inside
      obtain start | inFirst := List.infix_cons_iff.mp inside
      · -- The section would go on with `]>`, and so would the text after it.
        obtain ⟨rfl, tail⟩ := List.cons_prefix_cons.mp start
        obtain ⟨left, closes⟩ := tail.trans (prefix_of_mem_head sections)
        exact apart left rfl closes.symm
      · exact ih (by simp [sections]) inFirst
    · exact ih inRest
    · exact fun inside => absurd inside.length_le (by simp)
  | case3 =>
    rw [List.mem_singleton.mp member]
    exact fun inside => absurd inside.length_le (by simp)

end KeyholeMarkup.Xml

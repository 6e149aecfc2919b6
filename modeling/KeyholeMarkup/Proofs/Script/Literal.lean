import KeyholeMarkup.Proofs.Script.Reader

/-! Literals read back. Every escape stands for the character it was written for, so a literal ends
at its closing quote and holds its text. The literals for the lines of a text are one string. -/
namespace KeyholeMarkup.Script.Reading
open KeyholeMarkup.Text KeyholeMarkup.Xml

theorem digitValue?_hexDigit {digit : Nat} (h : digit < 16) :
    digitValue? 16 (hexDigit digit) = some digit := by
  have all : ∀ d < 16, digitValue? 16 (hexDigit d) = some d := by decide
  exact all digit h

theorem hexDigit_ne_plus {digit : Nat} (h : digit < 16) : hexDigit digit ≠ '+' := by
  have all : ∀ d < 16, hexDigit d ≠ '+' := by decide
  exact all digit h

theorem foldlM_hexDigits (width number start : Nat) (h : number < Nat.pow 16 width) :
    (hexDigits width number).foldlM
      (fun number c => (digitValue? 16 c).map (16 * number + ·)) start =
        some (Nat.pow 16 width * start + number) := by
  induction width generalizing number with
  | zero =>
    have none : number = 0 := by simpa [Nat.pow] using h
    simp [hexDigits, none, Nat.pow]
  | succ width ih =>
    have size : Nat.pow 16 (width + 1) = Nat.pow 16 width * 16 := rfl
    have smaller : number / 16 < Nat.pow 16 width := by omega
    have digit : number % 16 < 16 := Nat.mod_lt _ (by decide)
    rw [hexDigits, List.foldlM_append, ih _ smaller]
    simp only [List.foldlM_cons, List.foldlM_nil, digitValue?_hexDigit digit, Option.map_some,
      Option.bind_eq_bind, Option.bind_some, Option.pure_def, Option.some.injEq, size]
    have split := Nat.div_add_mod number 16
    rw [Nat.mul_add, Nat.mul_comm (Nat.pow 16 width) 16, Nat.mul_assoc]
    omega

theorem head_hexDigits (width number : Nat) :
    ∃ digit rest, digit < 16 ∧ hexDigits (width + 1) number = hexDigit digit :: rest := by
  induction width generalizing number with
  | zero => exact ⟨number % 16, [], Nat.mod_lt _ (by decide), rfl⟩
  | succ width ih =>
    obtain ⟨digit, rest, small, equal⟩ := ih (number / 16)
    exact ⟨digit, rest ++ [hexDigit (number % 16)], small, by rw [hexDigits, equal]; rfl⟩

theorem codePoint?_hexDigits (width number : Nat) (h : number < Nat.pow 16 (width + 1)) :
    codePoint? (hexDigits (width + 1) number) = some number := by
  obtain ⟨digit, rest, small, equal⟩ := head_hexDigits width number
  have unsigned : eat? ['+'] (hexDigits (width + 1) number) = none := by
    simp [equal, eat?, (hexDigit_ne_plus small).symm]
  have value := foldlM_hexDigits (width + 1) number 0 h
  simp only [codePoint?, unsigned, Option.getD_none]
  rw [equal] at value ⊢
  simpa using value

theorem escaped?_hexDigits (width : Nat) (c : Char) (h : c.toNat < Nat.pow 16 (width + 1)) :
    escaped? (hexDigits (width + 1) c.toNat) = some c := by
  have valid : c.toNat.isValidChar := c.valid
  simp [escaped?, codePoint?_hexDigits width c.toNat h, valid]

theorem take_hexDigits_append (width number : Nat) (rest : List Char) :
    (hexDigits width number ++ rest).take width = hexDigits width number :=
  List.take_left' (length_hexDigits width number)

theorem drop_hexDigits_append (width number : Nat) (rest : List Char) :
    (hexDigits width number ++ rest).drop width = rest :=
  List.drop_left' (length_hexDigits width number)

theorem body?_close (quote : Char) (rest : List Char) : body? quote (quote :: rest) = some ([], rest) := by
  rw [body?.eq_def]
  simp

theorem body?_plain {quote c : Char} (rest : List Char) (inner : c ≠ quote) (plain : c ≠ '\\') :
    body? quote (c :: rest) = (body? quote rest).map fun (body, rest) => (c :: body, rest) := by
  rw [body?.eq_def]
  simp [inner, plain]

theorem body?_letter {quote letter : Char} (rest : List Char) (ordinary : quote ≠ '\\')
    (alone : escapeWidth? letter = none) :
    body? quote ('\\' :: letter :: rest) =
      (body? quote rest).map fun (body, rest) => (unescape letter :: body, rest) := by
  rw [body?.eq_def]
  simp [ordinary.symm, alone]

theorem body?_codePoint (quote letter c : Char) (width : Nat) (rest : List Char)
    (ordinary : quote ≠ '\\') (known : escapeWidth? letter = some (width + 1))
    (h : c.toNat < Nat.pow 16 (width + 1)) :
    body? quote ('\\' :: letter :: hexDigits (width + 1) c.toNat ++ rest) =
      (body? quote rest).map fun (body, rest) => (c :: body, rest) := by
  rw [List.cons_append, List.cons_append, body?.eq_def]
  simp only [ordinary.symm, known, take_hexDigits_append, drop_hexDigits_append,
    escaped?_hexDigits width c h, ne_eq, not_true_eq_false, if_false]
  cases body? quote rest <;> rfl

theorem toNat_lt (c : Char) : c.toNat < 0x110000 := by
  have valid : c.toNat.isValidChar := c.valid
  rcases valid with small | ⟨_, large⟩
  · omega
  · exact large

/-- The letters that stand for a character by themselves after a backslash. -/
def letterEscape? : Char → Option Char
  | '\\' => some '\\'
  | '\'' => some '\''
  | '"' => some '"'
  | 'n' => some '\n'
  | 'r' => some '\r'
  | 't' => some '\t'
  | _ => none

theorem unescape_of_letterEscape? {letter c : Char} (stands : letterEscape? letter = some c) :
    unescape letter = c ∧ escapeWidth? letter = none := by
  unfold letterEscape? at stands
  split at stands
  case h_7 => cases stands
  all_goals
    cases stands
    exact ⟨by decide, by decide⟩

/-- The ways to write a character in a literal: as it is, by a letter, or by its code point. -/
inductive Escaped (quote c : Char) : List Char → Prop
  | plain : c ≠ quote → c ≠ '\\' → isPrintable c → Escaped quote c [c]
  | letter {letter} : letterEscape? letter = some c → Escaped quote c ['\\', letter]
  | codePoint {letter width} : escapeWidth? letter = some (width + 1) →
    c.toNat < Nat.pow 16 (width + 1) →
    Escaped quote c ('\\' :: letter :: hexDigits (width + 1) c.toNat)

theorem eq_of_isQuote {c : Char} (quoted : isQuote c) : c = '\'' ∨ c = '"' := by
  simpa [isQuote] using quoted

theorem ordinary_of_isQuote {quote : Char} (quoted : isQuote quote) : quote ≠ '\\' := by
  rintro rfl
  simp [isQuote] at quoted

theorem escaped_codePointEscape (quote c : Char) : Escaped quote c (codePointEscape c) := by
  have bound := toNat_lt c
  unfold codePointEscape
  split
  · exact .codePoint (show escapeWidth? 'x' = some (1 + 1) from rfl) ‹_›
  split
  · exact .codePoint (show escapeWidth? 'u' = some (3 + 1) from rfl) ‹_›
  · exact .codePoint (show escapeWidth? 'U' = some (7 + 1) from rfl) (Nat.lt_trans bound (by decide))

theorem escaped_escapeChar {quote : Char} (c : Char) (quoted : isQuote quote) :
    Escaped quote c (escapeChar quote c) := by
  unfold escapeChar
  split
  · rename_i same
    subst same
    exact .letter (by decide)
  rename_i other
  split
  · rename_i same
    subst same
    exact .letter (by decide)
  split
  · rename_i same
    subst same
    exact .letter (by decide)
  split
  · rename_i same
    subst same
    exact .letter (by decide)
  split
  · rename_i same
    subst same
    rcases eq_of_isQuote quoted with rfl | rfl
    · exact .letter (by decide)
    · exact .letter (by decide)
  rename_i inner
  split
  · exact .plain inner other ‹_›
  · exact escaped_codePointEscape quote c

/-- What is written for a character in a literal is read as this character. -/
theorem body?_escapeChar (quote c : Char) (rest : List Char) (quoted : isQuote quote) :
    body? quote (escapeChar quote c ++ rest) =
      (body? quote rest).map fun (body, rest) => (c :: body, rest) := by
  have ordinary := ordinary_of_isQuote quoted
  have escaped := escaped_escapeChar c quoted
  generalize escapeChar quote c = written at escaped
  cases escaped with
  | plain inner other _ => exact body?_plain rest inner other
  | letter stands =>
    obtain ⟨same, alone⟩ := unescape_of_letterEscape? stands
    rw [← same]
    exact body?_letter rest ordinary alone
  | codePoint known bound => exact body?_codePoint quote _ c _ rest ordinary known bound

theorem body?_escaped (quote : Char) (text rest : List Char) (quoted : isQuote quote) :
    body? quote (text.flatMap (escapeChar quote) ++ quote :: rest) = some (text, rest) := by
  induction text with
  | nil => exact body?_close quote rest
  | cons c text ih =>
    rw [List.flatMap_cons, List.append_assoc, body?_escapeChar _ _ _ quoted, ih]
    rfl

theorem string?_quoteWith (quote : Char) (text rest : List Char) (quoted : isQuote quote) :
    string? (quoteWith quote text ++ rest) = some (text, rest) := by
  have body := body?_escaped quote text rest quoted
  simpa [quoteWith, string?, quoted] using body

theorem isQuote_preferredQuote (text : List Char) : isQuote (preferredQuote text) := by
  unfold preferredQuote
  split <;> decide

theorem string?_literal (text rest : List Char) : string? (literal text ++ rest) = some (text, rest) :=
  string?_quoteWith _ text rest (isQuote_preferredQuote text)

theorem string?_doubleQuoted (text rest : List Char) :
    string? (doubleQuoted text ++ rest) = some (text, rest) :=
  string?_quoteWith _ text rest (by decide)

theorem startsString_literal (text rest : List Char) : startsString (literal text ++ rest) := by
  simpa [literal, quoteWith, startsString] using isQuote_preferredQuote text

theorem not_isBlank_of_isQuote {c : Char} (h : isQuote c) : isBlank c = false := by
  rcases eq_of_isQuote h with rfl | rfl <;> decide

theorem trimLeft_of_startsString {text : List Char} (h : startsString text) : trimLeft text = text := by
  cases text with
  | nil => rfl
  | cons c text =>
    have quoted : isQuote c := by simpa [startsString] using h
    simp [trimLeft, not_isBlank_of_isQuote quoted]

theorem trimLeft_append_of_allBlank {blank : List Char} (h : allBlank blank) (rest : List Char) :
    trimLeft (blank ++ rest) = trimLeft rest := by
  induction blank with
  | nil => rfl
  | cons c blank ih =>
    simp only [allBlank, List.all_cons, Bool.and_eq_true] at h
    simpa [trimLeft, h.1] using ih h.2

theorem strings?_literal (text rest : List Char) :
    strings? (literal text ++ rest) =
      if startsString (trimLeft rest) then
        (strings? (trimLeft rest)).map fun (others, rest) => (text ++ others, rest)
      else some (text, rest) := by
  rw [strings?]
  split
  · rename_i missing
    rw [string?_literal] at missing
    simp at missing
  · rename_i found
    rw [string?_literal] at found
    simp only [Option.some.injEq, Prod.mk.injEq] at found
    obtain ⟨rfl, rfl⟩ := found
    rfl

end KeyholeMarkup.Script.Reading

namespace KeyholeMarkup.Script
open KeyholeMarkup.Text Reading

/-- The text that a script keeps of some lines: each line that is not blank, trimmed, with a space
after it. -/
def joinedLines (lines : List (List Char)) : List Char :=
  ((lines.map trim).filter (!·.isEmpty)).flatMap (· ++ [' '])

/-- The text that a script keeps. Text within a line is kept as it is. -/
def keptText (text : List Char) : List Char :=
  if text.contains '\n' then joinedLines (lines text) else text

theorem allBlank_trimLeft (text : List Char) : allBlank (trimLeft text) = allBlank text := by
  induction text with
  | nil => rfl
  | cons c text ih =>
    by_cases blank : isBlank c
    · simpa [trimLeft, allBlank, blank] using ih
    · simp [trimLeft, allBlank, blank]

theorem trim_eq_nil_iff (text : List Char) : trim text = [] ↔ allBlank text := by
  have reversed : allBlank (trimLeft text).reverse = allBlank text := by
    rw [← allBlank_trimLeft text]
    simp [allBlank]
  rw [trim, trimRight, List.reverse_eq_nil_iff, trimLeft_eq_nil_iff, reversed]

theorem joinedLines_cons (line : List Char) (others : List (List Char)) :
    joinedLines (line :: others) =
      (if allBlank line then [] else trim line ++ [' ']) ++ joinedLines others := by
  have empty := trim_eq_nil_iff line
  by_cases blank : allBlank line
  · simp [joinedLines, empty.mpr blank, blank]
  · have filled : trim line ≠ [] := fun nil => blank (empty.mp nil)
    simp [joinedLines, filled, blank]

theorem joinedLines_eq_nil {lines : List (List Char)} (blank : ∀ line ∈ lines, allBlank line) :
    joinedLines lines = [] := by
  induction lines with
  | nil => rfl
  | cons line others ih =>
    have first := blank line (by simp)
    have rest := ih fun other member => blank other (by simp [member])
    rw [joinedLines_cons, if_pos first, rest]
    rfl

theorem flatMap_lineLiteral_eq_nil {lines : List (List Char)} (blank : ∀ line ∈ lines, allBlank line) :
    lines.flatMap lineLiteral = [] := by
  rw [List.flatMap_eq_nil_iff]
  intro line member
  simp [lineLiteral, blank line member]

theorem allBlank_replicate (count : Nat) : allBlank (List.replicate count ' ') := by
  simp [allBlank, isBlank]

theorem trimLeft_lineLiteral {line : List Char} (filled : ¬ allBlank line) (rest : List Char) :
    trimLeft (lineLiteral line ++ rest) = literal (trim line ++ [' ']) ++ '\n' :: rest := by
  rw [lineLiteral, if_neg filled, List.append_assoc, List.append_assoc,
    trimLeft_append_of_allBlank (allBlank_replicate _),
    trimLeft_of_startsString (startsString_literal _ _)]
  rfl

theorem trimLeft_lineFeed (text : List Char) : trimLeft ('\n' :: text) = trimLeft text :=
  trimLeft_append_of_allBlank (show allBlank ['\n'] by decide) text

theorem startsString_lineLiterals (lines : List (List Char)) (rest : List Char)
    (filled : lines.any (!allBlank ·)) :
    startsString (trimLeft (lines.flatMap lineLiteral ++ rest)) := by
  induction lines with
  | nil => simp at filled
  | cons line others ih =>
    rw [List.flatMap_cons, List.append_assoc]
    by_cases blank : allBlank line
    · have inner := ih (by simpa [blank] using filled)
      simpa [lineLiteral, blank] using inner
    · rw [trimLeft_lineLiteral blank]
      exact startsString_literal _ _

/-- The literals for some lines are read as one string, up to the line feed after the last one. -/
theorem strings?_lineLiterals (lines : List (List Char)) (rest : List Char)
    (filled : lines.any (!allBlank ·)) (last : startsString (trimLeft rest) = false) :
    strings? (trimLeft (lines.flatMap lineLiteral ++ rest)) =
      some (joinedLines lines, '\n' :: rest) := by
  induction lines with
  | nil => simp at filled
  | cons line others ih =>
    rw [List.flatMap_cons, List.append_assoc, joinedLines_cons]
    by_cases blank : allBlank line
    · have inner := ih (by simpa [blank] using filled)
      simpa [lineLiteral, blank] using inner
    rw [trimLeft_lineLiteral blank, strings?_literal, trimLeft_lineFeed, if_neg blank]
    by_cases more : others.any (!allBlank ·)
    · rw [if_pos (startsString_lineLiterals others rest more), ih more]
      rfl
    · have blanks : ∀ other ∈ others, allBlank other := by simpa using more
      rw [flatMap_lineLiteral_eq_nil blanks, joinedLines_eq_nil blanks]
      simp [last]

/-- A slot with a literal, and the text that is read in it. -/
structure Slot.Holds (slot : Slot) (kept : List Char) : Prop where
  filled : slot.filled = true
  ne_nil : kept ≠ []
  starts : ∀ rest, startsString (trimLeft (slot.code ++ rest))
  read : ∀ rest, startsString (trimLeft rest) = false →
    ∃ gap, allBlank gap ∧ strings? (trimLeft (slot.code ++ rest)) = some (kept, gap ++ rest)

structure Slot.Blank (slot : Slot) (kept : List Char) : Prop where
  unfilled : slot.filled = false
  eq_nil : kept = []
  blank : allBlank slot.code

theorem joinedLines_ne_nil {lines : List (List Char)} (filled : lines.any (!allBlank ·)) :
    joinedLines lines ≠ [] := by
  induction lines with
  | nil => simp at filled
  | cons line others ih =>
    rw [joinedLines_cons]
    by_cases blank : allBlank line
    · rw [if_pos blank]
      exact ih (by simpa [blank] using filled)
    · simp [blank]

theorem Slot.holds_lines {lines : List (List Char)} {indent : List Char} (blank : allBlank indent)
    (filled : lines.any (!allBlank ·)) :
    Slot.Holds ⟨'\n' :: lines.flatMap lineLiteral ++ indent, lines.any (!allBlank ·)⟩
      (joinedLines lines) := by
  refine ⟨filled, joinedLines_ne_nil filled, fun rest => ?_, fun rest last => ?_⟩
  · simp only [List.cons_append, List.append_assoc, trimLeft_lineFeed]
    exact startsString_lineLiterals _ _ filled
  · refine ⟨'\n' :: indent, by simpa [allBlank, isBlank] using blank, ?_⟩
    simp only [List.cons_append, List.append_assoc, trimLeft_lineFeed]
    apply strings?_lineLiterals _ _ filled
    rw [trimLeft_append_of_allBlank blank]
    exact last

theorem Slot.holds_literal {text : List Char} (filled : text ≠ []) :
    Slot.Holds ⟨literal text, true⟩ text := by
  refine ⟨rfl, filled, fun rest => ?_, fun rest last => ⟨[], rfl, ?_⟩⟩
  · rw [trimLeft_of_startsString (startsString_literal _ _)]
    exact startsString_literal _ _
  · rw [trimLeft_of_startsString (startsString_literal _ _), strings?_literal, last]
    rfl

/-- The literals in a slot are read as the text that a script keeps. -/
theorem Slot.holds_or_blank (text : List Char) {indent : List Char} (blank : allBlank indent) :
    (Slot.ofText text indent).Holds (keptText text) ∨ (Slot.ofText text indent).Blank (keptText text) := by
  unfold Slot.ofText keptText
  by_cases none : text.isEmpty
  · obtain rfl := List.isEmpty_iff.mp none
    exact .inr ⟨rfl, rfl, rfl⟩
  rw [if_neg none]
  by_cases broken : text.contains '\n'
  · rw [if_pos broken, if_pos broken]
    by_cases filled : (lines text).any (!allBlank ·)
    · exact .inl (Slot.holds_lines blank filled)
    · have blanks : ∀ line ∈ lines text, allBlank line := by simpa using filled
      refine .inr ⟨by simpa using filled, joinedLines_eq_nil blanks, ?_⟩
      rw [flatMap_lineLiteral_eq_nil blanks]
      simpa [allBlank, isBlank] using blank
  · rw [if_neg broken, if_neg broken]
    exact .inl (Slot.holds_literal (by simpa using none))

end KeyholeMarkup.Script

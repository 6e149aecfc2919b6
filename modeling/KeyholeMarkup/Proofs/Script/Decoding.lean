import KeyholeMarkup.Proofs.Script.Literal

/-! Literals as the language of the scripts has them. A literal ends at the first quote of its kind that
no backslash escapes, and its content is decoded escape by escape; escapes that the language does not
list are not decoded. What is written for a text is one literal of printable characters, which is
decoded to the text. -/
namespace KeyholeMarkup.Script.Reading
open KeyholeMarkup.Text KeyholeMarkup.Xml

/-- The text before the first quote that is not escaped, and the text after it. A backslash escapes
the character after it. -/
def untilQuote? (quote : Char) : List Char → Option (List Char × List Char)
  | [] => none
  | c :: text =>
    if c = quote then some ([], text)
    else if c = '\\' then
      match text with
      | [] => none
      | next :: text => (untilQuote? quote text).map fun (inner, rest) => (c :: next :: inner, rest)
    else (untilQuote? quote text).map fun (inner, rest) => (c :: inner, rest)

/-- The character whose code point some digits to base sixteen stand for. -/
def characterAt? (digits : List Char) : Option Char :=
  (digits.foldlM (fun number c => (digitValue? 16 c).map (16 * number + ·)) 0).bind fun code =>
    if code.isValidChar then some (Char.ofNat code) else none

/-- The text that the content of a literal stands for. A line break has to be escaped, and an escape
by code point has exactly as many digits as its letter says. -/
def decode? (content : List Char) : Option (List Char) :=
  match content with
  | [] => some []
  | c :: content =>
    if c = '\n' ∨ c = '\r' then none
    else if c ≠ '\\' then (decode? content).map (c :: ·)
    else
      match content with
      | [] => none
      | letter :: content =>
        match letterEscape? letter, escapeWidth? letter with
        | some c, _ => (decode? content).map (c :: ·)
        | none, some width =>
          if content.length < width then none
          else
            (characterAt? (content.take width)).bind fun c =>
              (decode? (content.drop width)).map (c :: ·)
        | none, none => none
termination_by content.length
decreasing_by
  · simp
  · simp only [List.length_cons]
    omega
  · simp only [List.length_cons, List.length_drop]
    omega

/-- The text of the literal at the beginning of a script, and what stands behind the literal. -/
def readLiteral? : List Char → Option (List Char × List Char)
  | [] => none
  | quote :: script =>
    if isQuote quote then
      (untilQuote? quote script).bind fun (content, rest) =>
        (decode? content).map fun text => (text, rest)
    else none

theorem characterAt?_hexDigits (width : Nat) (c : Char) (bound : c.toNat < Nat.pow 16 width) :
    characterAt? (hexDigits width c.toNat) = some c := by
  have valid : c.toNat.isValidChar := c.valid
  simp [characterAt?, foldlM_hexDigits width c.toNat 0 bound, valid]

theorem mem_hexDigits {width number : Nat} {c : Char} (member : c ∈ hexDigits width number) :
    ∃ digit < 16, c = hexDigit digit := by
  induction width generalizing number with
  | zero => cases member
  | succ width ih =>
    rcases List.mem_append.mp member with earlier | last
    · exact ih earlier
    · exact ⟨number % 16, Nat.mod_lt _ (by decide), List.mem_singleton.mp last⟩

theorem hexDigit_plain {digit : Nat} (small : digit < 16) :
    isQuote (hexDigit digit) = false ∧ hexDigit digit ≠ '\\' ∧ isPrintable (hexDigit digit) := by
  have all : ∀ digit < 16, isQuote (hexDigit digit) = false ∧ hexDigit digit ≠ '\\' ∧
      isPrintable (hexDigit digit) := by decide
  exact all digit small

theorem letterEscape?_of_escapeWidth? {letter : Char} {width : Nat}
    (known : escapeWidth? letter = some width) : letterEscape? letter = none := by
  unfold escapeWidth? at known
  split at known
  case h_4 => cases known
  all_goals rfl

theorem printable_of_letterEscape? {letter c : Char} (stands : letterEscape? letter = some c) :
    isPrintable letter := by
  unfold letterEscape? at stands
  split at stands
  case h_7 => cases stands
  all_goals decide

theorem printable_of_escapeWidth? {letter : Char} {width : Nat}
    (known : escapeWidth? letter = some width) : isPrintable letter := by
  unfold escapeWidth? at known
  split at known
  case h_4 => cases known
  all_goals decide

theorem isPrintable_of_isQuote {c : Char} (quoted : isQuote c) : isPrintable c := by
  rcases eq_of_isQuote quoted with rfl | rfl <;> decide

theorem untilQuote?_close (quote : Char) (rest : List Char) :
    untilQuote? quote (quote :: rest) = some ([], rest) := by
  rw [untilQuote?.eq_def]
  simp

theorem untilQuote?_plain {quote : Char} {part : List Char} (rest : List Char)
    (plain : ∀ d ∈ part, d ≠ quote ∧ d ≠ '\\') :
    untilQuote? quote (part ++ rest) =
      (untilQuote? quote rest).map fun (inner, rest) => (part ++ inner, rest) := by
  induction part with
  | nil => simp
  | cons d part ih =>
    obtain ⟨outside, ordinary⟩ := plain d List.mem_cons_self
    have later := ih fun other member => plain other (List.mem_cons_of_mem _ member)
    rw [List.cons_append, untilQuote?.eq_def]
    simp only [outside, ordinary, if_false, later, Option.map_map]
    rfl

theorem untilQuote?_backslash {quote : Char} (quoted : isQuote quote) (letter : Char)
    (rest : List Char) :
    untilQuote? quote ('\\' :: letter :: rest) =
      (untilQuote? quote rest).map fun (inner, rest) => ('\\' :: letter :: inner, rest) := by
  rw [untilQuote?.eq_def]
  simp [(ordinary_of_isQuote quoted).symm]

section
variable {quote c : Char} {written : List Char} (quoted : isQuote quote)
  (escaped : Escaped quote c written)
include quoted escaped

/-- No quote that ends a literal stands in what is written for a character. -/
theorem untilQuote?_escaped (rest : List Char) :
    untilQuote? quote (written ++ rest) =
      (untilQuote? quote rest).map fun (inner, rest) => (written ++ inner, rest) := by
  cases escaped with
  | plain inner other _ => exact untilQuote?_plain rest (by simp [inner, other])
  | letter stands => exact untilQuote?_backslash quoted _ rest
  | @codePoint letter width known bound =>
    have digits (d : Char) (member : d ∈ hexDigits (width + 1) c.toNat) : d ≠ quote ∧ d ≠ '\\' := by
      obtain ⟨digit, small, rfl⟩ := mem_hexDigits member
      obtain ⟨inner, other, -⟩ := hexDigit_plain small
      refine ⟨?_, other⟩
      rintro rfl
      rw [inner] at quoted
      cases quoted
    rw [List.cons_append, List.cons_append, untilQuote?_backslash quoted,
      untilQuote?_plain rest digits, Option.map_map]
    rfl

omit quoted in
/-- What is written for a character stands for it, whatever follows. -/
theorem decode?_escaped (rest : List Char) :
    decode? (written ++ rest) = (decode? rest).map (c :: ·) := by
  cases escaped with
  | plain inner other printable =>
    have lineless : ¬ (c = '\n' ∨ c = '\r') := by
      rintro (rfl | rfl) <;> exact absurd printable (by decide)
    rw [List.singleton_append, decode?.eq_def]
    simp [lineless, other]
  | letter stands =>
    rw [List.cons_append, List.cons_append, List.nil_append, decode?.eq_def]
    simp [stands]
  | @codePoint letter width known bound =>
    have enough : ¬ width + 1 + rest.length < width + 1 := by omega
    rw [List.cons_append, List.cons_append, decode?.eq_def]
    simp [letterEscape?_of_escapeWidth? known, known, enough,
      characterAt?_hexDigits (width + 1) c bound]

omit quoted in
theorem printable_escaped : ∀ d ∈ written, isPrintable d := by
  have backslash : isPrintable '\\' := by decide
  cases escaped with
  | plain _ _ printable => simpa using printable
  | letter stands => simpa using ⟨backslash, printable_of_letterEscape? stands⟩
  | codePoint known bound =>
    intro d member
    rcases List.mem_cons.mp member with rfl | member
    · exact backslash
    rcases List.mem_cons.mp member with rfl | member
    · exact printable_of_escapeWidth? known
    · obtain ⟨digit, small, rfl⟩ := mem_hexDigits member
      exact (hexDigit_plain small).2.2

end

/-- A literal that spells a text, whatever stands behind it: it is read as the text, the quote that
closes it is the first one after the opening that is not escaped, and none of its characters is
unprintable. -/
structure Spells (written text : List Char) : Prop where
  read : ∀ rest, readLiteral? (written ++ rest) = some (text, rest)
  closed : ∃ quote content, isQuote quote ∧ written = quote :: content ++ [quote] ∧
    ∀ rest, untilQuote? quote (content ++ quote :: rest) = some (content, rest)
  printable : ∀ c ∈ written, isPrintable c

section
variable {quote : Char} (text : List Char) (quoted : isQuote quote)
include quoted

theorem untilQuote?_content (rest : List Char) :
    untilQuote? quote (text.flatMap (escapeChar quote) ++ quote :: rest) =
      some (text.flatMap (escapeChar quote), rest) := by
  induction text with
  | nil => exact untilQuote?_close quote rest
  | cons c text ih =>
    rw [List.flatMap_cons, List.append_assoc,
      untilQuote?_escaped quoted (escaped_escapeChar c quoted), ih]
    rfl

theorem decode?_content : decode? (text.flatMap (escapeChar quote)) = some text := by
  induction text with
  | nil => rw [List.flatMap_nil, decode?]
  | cons c text ih =>
    rw [List.flatMap_cons, decode?_escaped (escaped_escapeChar c quoted), ih]
    rfl

theorem printable_quoteWith : ∀ c ∈ quoteWith quote text, isPrintable c := by
  intro c member
  rw [quoteWith, List.mem_append, List.mem_cons, List.mem_flatMap, List.mem_singleton] at member
  rcases member with (rfl | ⟨d, -, inside⟩) | rfl
  · exact isPrintable_of_isQuote quoted
  · exact printable_escaped (escaped_escapeChar d quoted) c inside
  · exact isPrintable_of_isQuote quoted

theorem spells_quoteWith : Spells (quoteWith quote text) text := by
  refine ⟨fun rest => ?_, ?_, printable_quoteWith text quoted⟩
  · have closed := untilQuote?_content text quoted rest
    simp [quoteWith, readLiteral?, quoted, closed, decode?_content text quoted]
  · exact ⟨quote, _, quoted, rfl, untilQuote?_content text quoted⟩

end

/-- Both forms of a literal spell their text, for every text. -/
theorem literals_spell (text : List Char) :
    Spells (literal text) text ∧ Spells (doubleQuoted text) text :=
  ⟨spells_quoteWith text (isQuote_preferredQuote text), spells_quoteWith text (by decide)⟩

/-- A text of a backslash and a quote does not end its literal early. -/
example : readLiteral? (literal "\\'\"".toList ++ "+x".toList) =
    some ("\\'\"".toList, "+x".toList) := by
  cbv

end KeyholeMarkup.Script.Reading

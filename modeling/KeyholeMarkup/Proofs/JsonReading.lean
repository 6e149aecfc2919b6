import KeyholeMarkup.Json

/-! Compact JSON read back. The reader takes a part of the grammar: no blanks, small hexadecimal
digits in escapes, and none for characters outside of the basic plane. What is read is JSON, and all
texts that are written can be read. -/
namespace KeyholeMarkup.Json

/-- The text of a value, as characters. -/
def text (value : Json) : List Char := value.render.toList

def hexValue? (c : Char) : Option Nat := "0123456789abcdef".toList.idxOf? c

/-- The character of an escape by code point, given by its four digits. -/
def codeUnit? (digits : List Char) : Option Char :=
  (digits.foldlM (fun code c => (hexValue? c).map (16 * code + ·)) 0).bind fun code =>
    if code.isValidChar then some (Char.ofNat code) else none

def unescape? : Char → Option Char
  | '"' => some '"'
  | '\\' => some '\\'
  | '/' => some '/'
  | 'n' => some '\n'
  | 'r' => some '\r'
  | 't' => some '\t'
  | 'b' => some '\x08'
  | 'f' => some '\x0c'
  | _ => none

/-- A character put in front of what is read after it. -/
def before (c : Char) : List Char × List Char → List Char × List Char
  | (body, rest) => (c :: body, rest)

/-- The content of a string after its opening quote, and the text after the closing one. -/
def string? : List Char → Option (List Char × List Char)
  | '"' :: rest => some ([], rest)
  | '\\' :: 'u' :: d1 :: d2 :: d3 :: d4 :: rest =>
    match codeUnit? [d1, d2, d3, d4] with
    | some c => (string? rest).map (before c)
    | none => none
  | '\\' :: letter :: rest =>
    match unescape? letter with
    | some c => (string? rest).map (before c)
    | none => none
  | c :: rest => if c.toNat < 0x20 ∨ c = '\\' then none else (string? rest).map (before c)
  | [] => none

/-- Digits that do not begin with a superfluous zero, as a number. -/
def whole? (digits : List Char) : Option Nat :=
  let value := Nat.ofDigitChars 10 digits 0
  if Nat.toDigits 10 value = digits then some value else none

/-- What may follow the digits of a number: a point and the digits behind it, which are counted. -/
def places? (value : Nat) : List Char → Option ((Nat × Nat) × List Char)
  | '.' :: rest =>
    let digits := rest.takeWhile Char.isDigit
    if digits = [] then none
    else some ((Nat.ofDigitChars 10 digits value, digits.length), rest.dropWhile Char.isDigit)
  | rest => some ((value, 0), rest)

/-- The digits of a number without its sign, and how many of them stand behind the point. -/
def unsigned? (text : List Char) : Option ((Nat × Nat) × List Char) :=
  (whole? (text.takeWhile Char.isDigit)).bind fun value =>
    places? value (text.dropWhile Char.isDigit)

def number? : List Char → Option (Json × List Char)
  | '-' :: rest =>
    (unsigned? rest).map fun ((mantissa, places), rest) => (.number (-mantissa) places, rest)
  | rest => (unsigned? rest).map fun ((mantissa, places), rest) => (.number mantissa places, rest)

mutual

/-- A value and the text after it. The limit is one on the values and lists that are read. -/
def value? : Nat → List Char → Option (Json × List Char)
  | 0, _ => none
  | _ + 1, 'n' :: 'u' :: 'l' :: 'l' :: rest => some (.null, rest)
  | _ + 1, 't' :: 'r' :: 'u' :: 'e' :: rest => some (.bool true, rest)
  | _ + 1, 'f' :: 'a' :: 'l' :: 's' :: 'e' :: rest => some (.bool false, rest)
  | _ + 1, '"' :: rest => (string? rest).map fun (body, rest) => (.string (String.ofList body), rest)
  | _ + 1, '[' :: ']' :: rest => some (.array [], rest)
  | limit + 1, '[' :: rest => (items? limit rest).map fun (items, rest) => (.array items, rest)
  | _ + 1, '{' :: '}' :: rest => some (.object [], rest)
  | limit + 1, '{' :: rest => (fields? limit rest).map fun (fields, rest) => (.object fields, rest)
  | _ + 1, text => number? text

/-- Items up to the closing bracket. -/
def items? : Nat → List Char → Option (List Json × List Char)
  | 0, _ => none
  | limit + 1, text =>
    match value? limit text with
    | some (item, ']' :: rest) => some ([item], rest)
    | some (item, ',' :: rest) =>
      (items? limit rest).map fun (items, rest) => (item :: items, rest)
    | _ => none

/-- Fields up to the closing brace. -/
def fields? : Nat → List Char → Option (List (String × Json) × List Char)
  | 0, _ => none
  | limit + 1, '"' :: text =>
    match string? text with
    | some (name, ':' :: text) =>
      match value? limit text with
      | some (value, '}' :: rest) => some ([(String.ofList name, value)], rest)
      | some (value, ',' :: rest) =>
        (fields? limit rest).map fun (fields, rest) => ((String.ofList name, value) :: fields, rest)
      | _ => none
    | _ => none
  | _ + 1, _ => none

end

/-- The value that a text is, from its first to its last character. -/
def read? (text : List Char) : Option Json :=
  match value? text.length text with
  | some (value, []) => some value
  | _ => none

theorem hexValue?_hexDigit {digit : Nat} (h : digit < 16) :
    hexValue? (hexDigit digit) = some digit := by
  have all : ∀ d < 16, hexValue? (hexDigit d) = some d := by decide
  exact all digit h

theorem codeUnit?_control {c : Char} (control : c.toNat < 0x20) :
    codeUnit? ['0', '0', hexDigit (c.toNat / 16), hexDigit (c.toNat % 16)] = some c := by
  have high := hexValue?_hexDigit (show c.toNat / 16 < 16 by omega)
  have low := hexValue?_hexDigit (show c.toNat % 16 < 16 by omega)
  have zero : hexValue? '0' = some 0 := by decide
  have whole : 16 * (c.toNat / 16) + c.toNat % 16 = c.toNat := by omega
  have valid : c.toNat.isValidChar := c.valid
  simp [codeUnit?, zero, high, low, whole, valid]

theorem string?_plain {c : Char} (rest : List Char) (quote : c ≠ '"') (backslash : c ≠ '\\')
    (printable : ¬ c.toNat < 0x20) : string? (c :: rest) = (string? rest).map (before c) := by
  rw [string?.eq_def]
  split
  · rename_i same
    exact absurd (List.head_eq_of_cons_eq same) quote
  · rename_i same
    exact absurd (List.head_eq_of_cons_eq same) backslash
  · rename_i same
    exact absurd (List.head_eq_of_cons_eq same) backslash
  · rename_i same
    obtain ⟨rfl, rfl⟩ := List.cons.inj same
    exact if_neg (not_or.mpr ⟨printable, backslash⟩)
  · rename_i same
    cases same

theorem string?_letter {letter c : Char} (rest : List Char) (other : letter ≠ 'u')
    (escaped : unescape? letter = some c) :
    string? ('\\' :: letter :: rest) = (string? rest).map (before c) := by
  rw [string?.eq_def]
  simp [escaped, other]

/-- An escape is read as the character that it was written for. -/
theorem string?_escapeChar (c : Char) (rest : List Char) :
    string? (escapeChar c ++ rest) = (string? rest).map (before c) := by
  unfold escapeChar
  repeat' split
  all_goals try
    subst c
    exact string?_letter rest (by decide) rfl
  · rename_i control
    simp [string?, codeUnit?_control control]
  · rename_i quote backslash _ _ _ _ _ printable
    exact string?_plain rest quote backslash printable

theorem string?_quote (content : String) (rest : List Char) :
    ∃ body, (quote content).toList = '"' :: body ∧ string? (body ++ rest) = some (content.toList, rest) := by
  refine ⟨content.toList.flatMap escapeChar ++ ['"'], by simp [quote], ?_⟩
  induction content.toList with
  | nil => simp [string?]
  | cons c content ih =>
    rw [List.flatMap_cons, List.append_assoc, List.append_assoc, string?_escapeChar,
      ← List.append_assoc, ih]
    rfl

/-- A text that does not go on with a number. -/
def Ends (rest : List Char) : Prop :=
  ∀ c, rest.head? = some c → c.isDigit = false ∧ c ≠ '.'

theorem takeWhile_digits {digits rest : List Char} (all : ∀ c ∈ digits, c.isDigit = true)
    (stop : ∀ c, rest.head? = some c → c.isDigit = false) :
    (digits ++ rest).takeWhile Char.isDigit = digits ∧ (digits ++ rest).dropWhile Char.isDigit = rest := by
  rw [List.takeWhile_append_of_pos all, List.dropWhile_append_of_pos all]
  cases rest with
  | nil => simp
  | cons c rest => simp [stop c rfl]

theorem whole?_toDigits (value : Nat) : whole? (Nat.toDigits 10 value) = some value := by
  simp [whole?, Nat.ofDigitChars_ten_toDigits]

/-- The digits behind the point, of which there are as many as places. -/
def padded (mantissa places : Nat) : List Char :=
  let digits := Nat.toDigits 10 (mantissa % Nat.pow 10 places)
  List.replicate (places - digits.length) '0' ++ digits

/-- The text of a number without its sign. -/
def unsignedText (mantissa places : Nat) : List Char :=
  if places = 0 then Nat.toDigits 10 mantissa
  else Nat.toDigits 10 (mantissa / Nat.pow 10 places) ++ '.' :: padded mantissa places

theorem text_number (mantissa : Int) (places : Nat) : text (.number mantissa places) =
    (if mantissa < 0 then ['-'] else []) ++ unsignedText mantissa.natAbs places := by
  unfold text render decimal unsignedText padded
  split
  · cases mantissa with
    | ofNat m => simp [Int.repr]
    | negSucc m => simp [Int.repr]
  · split <;> simp [Nat.repr_eq_ofList_toDigits]

theorem isDigit_toDigits {value : Nat} : ∀ c ∈ Nat.toDigits 10 value, c.isDigit = true :=
  fun _ member => Nat.isDigit_of_mem_toDigits (by decide) (by decide) member

theorem isDigit_padded (mantissa places : Nat) : ∀ c ∈ padded mantissa places, c.isDigit = true := by
  intro c member
  rcases List.mem_append.mp member with zero | digit
  · rw [List.eq_of_mem_replicate zero]
    rfl
  · exact isDigit_toDigits c digit

theorem length_padded (mantissa : Nat) {places : Nat} (positive : 0 < places) :
    (padded mantissa places).length = places := by
  have below : mantissa % Nat.pow 10 places < Nat.pow 10 places :=
    Nat.mod_lt _ (Nat.pow_pos (by decide))
  have size := (Nat.length_toDigits_le_iff (by decide) positive).mpr below
  simp only [padded, List.length_append, List.length_replicate]
  omega

/-- The digits on both sides of a point are those of one number. -/
theorem ofDigitChars_padded (mantissa : Nat) {places : Nat} (positive : 0 < places) :
    Nat.ofDigitChars 10 (padded mantissa places) (mantissa / Nat.pow 10 places) = mantissa := by
  have below : mantissa % Nat.pow 10 places < Nat.pow 10 places :=
    Nat.mod_lt _ (Nat.pow_pos (by decide))
  have value : Nat.ofDigitChars 10 (padded mantissa places) 0 = mantissa % Nat.pow 10 places := by
    rw [padded, Nat.ofDigitChars_append, Nat.ofDigitChars_replicate_zero, Nat.mul_zero,
      Nat.ofDigitChars_ten_toDigits]
  rw [Nat.ofDigitChars_eq_ofDigitChars_zero, length_padded mantissa positive, value]
  exact Nat.div_add_mod mantissa (Nat.pow 10 places)

theorem places?_ends (value : Nat) {rest : List Char} (ends : Ends rest) :
    places? value rest = some ((value, 0), rest) := by
  unfold places?
  split
  · exact absurd rfl (ends '.' rfl).2
  · rfl

theorem unsigned?_text (mantissa places : Nat) {rest : List Char} (ends : Ends rest) :
    unsigned? (unsignedText mantissa places ++ rest) = some ((mantissa, places), rest) := by
  have stop : ∀ c, rest.head? = some c → c.isDigit = false := fun c first => (ends c first).1
  by_cases none : places = 0
  · have digits := takeWhile_digits (@isDigit_toDigits mantissa) stop
    rw [unsignedText, if_pos none, unsigned?, digits.1, digits.2, whole?_toDigits, none]
    exact places?_ends mantissa ends
  · have positive := Nat.pos_of_ne_zero none
    have length := length_padded mantissa positive
    have before := takeWhile_digits (@isDigit_toDigits (mantissa / Nat.pow 10 places))
      (show ∀ c, ('.' :: (padded mantissa places ++ rest)).head? = some c → c.isDigit = false by simp)
    have behind := takeWhile_digits (isDigit_padded mantissa places) stop
    rw [unsignedText, if_neg none, unsigned?, List.append_assoc, List.cons_append, before.1, before.2,
      whole?_toDigits]
    simp only [Option.bind_some, places?, behind.1, behind.2, length, ofDigitChars_padded mantissa positive]
    rw [if_neg]
    intro empty
    simp [empty] at length
    omega

theorem head_unsignedText (mantissa places : Nat) :
    ∃ digit digits, unsignedText mantissa places = digit :: digits ∧ digit.isDigit = true := by
  have begins : ∀ value, ∃ digit digits, Nat.toDigits 10 value = digit :: digits ∧
      digit.isDigit = true := by
    intro value
    obtain ⟨digit, digits, parts⟩ := List.exists_cons_of_ne_nil (@Nat.toDigits_ne_nil value 10)
    have member : digit ∈ Nat.toDigits 10 value := by
      rw [parts]
      exact List.mem_cons_self
    exact ⟨digit, digits, parts, isDigit_toDigits digit member⟩
  unfold unsignedText
  split
  · exact begins mantissa
  · obtain ⟨digit, digits, parts, isDigit⟩ := begins (mantissa / Nat.pow 10 places)
    exact ⟨digit, _, by rw [parts, List.cons_append], isDigit⟩

theorem value?_number {c : Char} (rest : List Char) (limit : Nat)
    (number : c.isDigit = true ∨ c = '-') : value? (limit + 1) (c :: rest) = number? (c :: rest) := by
  have other : c ≠ 'n' ∧ c ≠ 't' ∧ c ≠ 'f' ∧ c ≠ '"' ∧ c ≠ '[' ∧ c ≠ '{' := by
    refine ⟨?_, ?_, ?_, ?_, ?_, ?_⟩ <;>
    · rintro rfl
      simp at number
  obtain ⟨h1, h2, h3, h4, h5, h6⟩ := other
  rw [value?.eq_def]
  simp [h1, h2, h3, h4, h5, h6]

theorem value?_text_number (mantissa : Int) (places limit : Nat) {rest : List Char}
    (ends : Ends rest) : value? (limit + 1) (text (.number mantissa places) ++ rest) =
      some (.number mantissa places, rest) := by
  rw [text_number]
  by_cases negative : mantissa < 0
  · rw [if_pos negative, List.singleton_append, List.cons_append, value?_number _ _ (.inr rfl), number?,
      unsigned?_text _ _ ends, Option.map_some]
    have same : -(mantissa.natAbs : Int) = mantissa := by omega
    exact congrArg (fun value => some (Json.number value places, rest)) same
  · obtain ⟨digit, digits, parts, isDigit⟩ := head_unsignedText mantissa.natAbs places
    have unsigned := unsigned?_text mantissa.natAbs places ends
    rw [parts, List.cons_append] at unsigned
    rw [if_neg negative, List.nil_append, parts, List.cons_append, value?_number _ _ (.inl isDigit)]
    unfold number?
    split
    · rename_i same
      cases List.head_eq_of_cons_eq same
      simp at isDigit
    · rw [unsigned, Option.map_some]
      have same : (mantissa.natAbs : Int) = mantissa := by omega
      exact congrArg (fun value => some (Json.number value places, rest)) same

/-- Parts with commas between them and a mark behind the last one. -/
def closedBy (mark : Char) : List (List Char) → List Char
  | [] => [mark]
  | [part] => part ++ [mark]
  | part :: next :: parts => part ++ ',' :: closedBy mark (next :: parts)

theorem closedBy_eq (mark : Char) (parts : List (List Char)) :
    [','].intercalate parts ++ [mark] = closedBy mark parts := by
  induction parts with
  | nil => rfl
  | cons part parts ih =>
    cases parts with
    | nil => simp [closedBy, List.intercalate_singleton]
    | cons next parts => rw [List.intercalate_cons_cons, closedBy, ← ih]; simp

def fieldText (field : String × Json) : List Char := (quote field.1).toList ++ ':' :: text field.2

theorem renderItems_eq (items : List Json) : (renderItems items).map String.toList = items.map text := by
  induction items with
  | nil => rfl
  | cons item items ih => simp [renderItems, text, ih]

theorem renderFields_eq (fields : List (String × Json)) :
    (renderFields fields).map String.toList = fields.map fieldText := by
  induction fields with
  | nil => rfl
  | cons field fields ih =>
    obtain ⟨name, value⟩ := field
    simp [renderFields, fieldText, text, ih]

theorem text_array (items : List Json) : text (.array items) = '[' :: closedBy ']' (items.map text) := by
  rw [← closedBy_eq, ← renderItems_eq]
  simp [text, render]

theorem text_object (fields : List (String × Json)) :
    text (.object fields) = '{' :: closedBy '}' (fields.map fieldText) := by
  rw [← closedBy_eq, ← renderFields_eq]
  simp [text, render]

theorem ends_cons {c : Char} {rest : List Char} (digit : c.isDigit = false) (point : c ≠ '.') :
    Ends (c :: rest) := by
  intro first same
  cases Option.some.inj same
  exact ⟨digit, point⟩

theorem text_string (content : String) : text (.string content) = (quote content).toList := rfl

theorem head_text (value : Json) : ∃ c rest, text value = c :: rest ∧ c ≠ ']' := by
  cases value with
  | null => exact ⟨'n', _, rfl, by decide⟩
  | bool value => cases value <;> exact ⟨_, _, rfl, by decide⟩
  | number mantissa places =>
    rw [text_number]
    split
    · exact ⟨'-', _, rfl, by decide⟩
    · obtain ⟨digit, digits, parts, isDigit⟩ := head_unsignedText mantissa.natAbs places
      refine ⟨digit, digits, parts, ?_⟩
      rintro rfl
      simp at isDigit
  | string content =>
    obtain ⟨body, parts, -⟩ := string?_quote content []
    exact ⟨'"', body, parts, by decide⟩
  | array items => exact ⟨'[', _, text_array items, by decide⟩
  | object fields => exact ⟨'{', _, text_object fields, by decide⟩

theorem head_closedBy (mark c : Char) (part : List Char) (parts : List (List Char)) :
    ∃ rest, closedBy mark ((c :: part) :: parts) = c :: rest := by
  cases parts with
  | nil => exact ⟨_, rfl⟩
  | cons next parts => exact ⟨_, rfl⟩

theorem length_closedBy (mark : Char) (parts : List (List Char)) :
    (closedBy mark parts).length ≠ 0 := by
  cases parts with
  | nil => simp [closedBy]
  | cons part parts => cases parts <;> simp [closedBy]

theorem value?_array (item : Json) (items : List Json) (limit : Nat) (rest : List Char) :
    value? (limit + 1) (text (.array (item :: items)) ++ rest) =
      (items? limit (closedBy ']' ((item :: items).map text) ++ rest)).map
        fun (items, rest) => (.array items, rest) := by
  obtain ⟨c, part, begins, other⟩ := head_text item
  obtain ⟨others, parts⟩ := head_closedBy ']' c part (items.map text)
  rw [text_array, List.map_cons, begins, parts, List.cons_append, List.cons_append, value?.eq_def]
  simp [other]

theorem value?_object (field : String × Json) (fields : List (String × Json)) (limit : Nat)
    (rest : List Char) : value? (limit + 1) (text (.object (field :: fields)) ++ rest) =
      (fields? limit (closedBy '}' ((field :: fields).map fieldText) ++ rest)).map
        fun (fields, rest) => (.object fields, rest) := by
  obtain ⟨body, begins, -⟩ := string?_quote field.1 []
  obtain ⟨others, parts⟩ :=
    head_closedBy '}' '"' (body ++ ':' :: text field.2) (fields.map fieldText)
  rw [text_object, List.map_cons, fieldText, begins, List.cons_append, List.cons_append, parts,
    List.cons_append, value?.eq_def]
  simp

/-- Texts that are not longer than the limit are read. -/
structure Reads (limit : Nat) : Prop where
  value : ∀ value rest, (text value).length ≤ limit → Ends rest →
    value? limit (text value ++ rest) = some (value, rest)
  items : ∀ item items rest, (closedBy ']' ((item :: items).map text)).length ≤ limit →
    items? limit (closedBy ']' ((item :: items).map text) ++ rest) = some (item :: items, rest)
  fields : ∀ field fields rest, (closedBy '}' ((field :: fields).map fieldText)).length ≤ limit →
    fields? limit (closedBy '}' ((field :: fields).map fieldText) ++ rest) =
      some (field :: fields, rest)

variable {limit : Nat}

theorem Reads.value_succ (reads : Reads limit) (value : Json) (rest : List Char)
    (size : (text value).length ≤ limit + 1) (ends : Ends rest) :
    value? (limit + 1) (text value ++ rest) = some (value, rest) := by
  cases value with
  | null => rfl
  | bool value => cases value <;> rfl
  | number mantissa places => exact value?_text_number mantissa places limit ends
  | string content =>
    obtain ⟨body, quoted, read⟩ := string?_quote content rest
    rw [text_string, quoted, List.cons_append, value?, read]
    simp
  | array items =>
    cases items with
    | nil => simp [text_array, closedBy, value?]
    | cons item items =>
      rw [text_array, List.length_cons] at size
      rw [value?_array, reads.items item items rest (Nat.le_of_succ_le_succ size), Option.map_some]
  | object fields =>
    cases fields with
    | nil => simp [text_object, closedBy, value?]
    | cons field fields =>
      rw [text_object, List.length_cons] at size
      rw [value?_object, reads.fields field fields rest (Nat.le_of_succ_le_succ size),
        Option.map_some]

theorem Reads.items_succ (reads : Reads limit) (item : Json) (items : List Json) (rest : List Char)
    (size : (closedBy ']' ((item :: items).map text)).length ≤ limit + 1) :
    items? (limit + 1) (closedBy ']' ((item :: items).map text) ++ rest) =
      some (item :: items, rest) := by
  cases items with
  | nil =>
    simp only [List.map_cons, List.map_nil, closedBy, List.length_append, List.length_singleton] at size
    have first := reads.value item (']' :: rest) (by omega) (ends_cons rfl (by decide))
    simp only [List.map_cons, List.map_nil, closedBy, List.append_assoc, List.singleton_append, items?,
      first]
  | cons next items =>
    simp only [List.map_cons, closedBy, List.length_append, List.length_cons] at size
    have others := reads.items next items rest (by rw [List.map_cons]; omega)
    have first := reads.value item (',' :: (closedBy ']' ((next :: items).map text) ++ rest))
      (by omega) (ends_cons rfl (by decide))
    rw [List.map_cons] at first others
    simp only [List.map_cons, closedBy, List.append_assoc, List.cons_append, items?, first, others,
      Option.map_some]

theorem Reads.fields_succ (reads : Reads limit) (field : String × Json)
    (fields : List (String × Json)) (rest : List Char)
    (size : (closedBy '}' ((field :: fields).map fieldText)).length ≤ limit + 1) :
    fields? (limit + 1) (closedBy '}' ((field :: fields).map fieldText) ++ rest) =
      some (field :: fields, rest) := by
  obtain ⟨name, value⟩ := field
  have head : fieldText (name, value) = (quote name).toList ++ ':' :: text value := rfl
  cases fields with
  | nil =>
    simp only [List.map_cons, List.map_nil, closedBy, head, List.length_append, List.length_cons] at size
    obtain ⟨body, quoted, read⟩ := string?_quote name (':' :: (text value ++ '}' :: rest))
    have first := reads.value value ('}' :: rest) (by omega) (ends_cons rfl (by decide))
    simp only [List.map_cons, List.map_nil, closedBy, head, quoted, List.append_assoc,
      List.cons_append, List.nil_append, fields?, read, first, String.ofList_toList]
  | cons next fields =>
    simp only [List.map_cons, closedBy, head, List.length_append, List.length_cons] at size
    have others := reads.fields next fields rest (by rw [List.map_cons]; omega)
    have first := reads.value value
      (',' :: (closedBy '}' ((next :: fields).map fieldText) ++ rest)) (by omega)
      (ends_cons rfl (by decide))
    obtain ⟨body, quoted, read⟩ := string?_quote name
      (':' :: (text value ++ ',' :: (closedBy '}' ((next :: fields).map fieldText) ++ rest)))
    rw [List.map_cons] at first others read
    simp only [List.map_cons, closedBy, head, quoted, List.append_assoc, List.cons_append, fields?, read,
      first, others, Option.map_some, String.ofList_toList]

/-- By induction on the limit: what stands inside a value is shorter than the value. -/
theorem reads (limit : Nat) : Reads limit := by
  induction limit with
  | zero =>
    refine ⟨?_, ?_, ?_⟩
    · intro value rest size
      obtain ⟨c, others, parts, -⟩ := head_text value
      simp [parts] at size
    · intro item items rest size
      exact absurd (Nat.le_zero.mp size) (length_closedBy _ _)
    · intro field fields rest size
      exact absurd (Nat.le_zero.mp size) (length_closedBy _ _)
  | succ limit ih => exact ⟨ih.value_succ, ih.items_succ, ih.fields_succ⟩

/-- The text of a value is read as that value. -/
theorem read?_text (value : Json) : read? (text value) = some value := by
  have read := (reads (text value).length).value value [] (Nat.le_refl _) (by simp [Ends])
  rw [List.append_nil] at read
  rw [read?, read]

/-- No control characters of the first block, so no line break either. -/
def Printable (characters : List Char) : Prop := ∀ c ∈ characters, 0x20 ≤ c.toNat

theorem printable_append {first second : List Char} :
    Printable (first ++ second) ↔ Printable first ∧ Printable second := by
  simp [Printable, or_imp, forall_and]

theorem printable_cons {c : Char} {rest : List Char} :
    Printable (c :: rest) ↔ 0x20 ≤ c.toNat ∧ Printable rest := by
  simp [Printable]

theorem printable_hexDigit {digit : Nat} (h : digit < 16) : 0x20 ≤ (hexDigit digit).toNat := by
  have all : ∀ d < 16, 0x20 ≤ (hexDigit d).toNat := by decide
  exact all digit h

theorem printable_letter {letter : Char} (h : 0x20 ≤ letter.toNat) : Printable ['\\', letter] := by
  simp [Printable, h]

theorem printable_escapeChar (c : Char) : Printable (escapeChar c) := by
  unfold escapeChar
  repeat' split
  all_goals try exact printable_letter (by decide)
  · rename_i control
    have high := printable_hexDigit (show c.toNat / 16 < 16 by omega)
    have low := printable_hexDigit (show c.toNat % 16 < 16 by omega)
    simp [Printable, high, low]
  · rename_i printable
    simpa [Printable] using printable

theorem printable_quote (content : String) : Printable (quote content).toList := by
  have body : Printable (content.toList.flatMap escapeChar) := by
    intro c member
    obtain ⟨written, -, inside⟩ := List.mem_flatMap.mp member
    exact printable_escapeChar written c inside
  have last : Printable ['"'] := by simp [Printable]
  rw [quote, String.toList_ofList, List.cons_append, printable_cons, printable_append]
  exact ⟨by decide, body, last⟩

theorem printable_digits {digits : List Char} (all : ∀ c ∈ digits, c.isDigit = true) :
    Printable digits := by
  intro c member
  have digit := all c member
  simp only [Char.isDigit, ge_iff_le, Bool.and_eq_true, decide_eq_true_eq] at digit
  exact Nat.le_trans (by decide) (UInt32.le_iff_toNat_le.mp digit.1)

theorem printable_number (mantissa : Int) (places : Nat) : Printable (text (.number mantissa places)) := by
  rw [text_number, printable_append]
  constructor
  · split <;> simp [Printable]
  · unfold unsignedText
    split
    · exact printable_digits isDigit_toDigits
    · rw [printable_append, printable_cons]
      exact ⟨printable_digits isDigit_toDigits, by decide,
        printable_digits (isDigit_padded mantissa.natAbs places)⟩

theorem printable_closedBy {mark : Char} {parts : List (List Char)} (ends : 0x20 ≤ mark.toNat)
    (all : ∀ part ∈ parts, Printable part) : Printable (closedBy mark parts) := by
  have last : Printable [mark] := by simpa [Printable] using ends
  induction parts with
  | nil => exact last
  | cons part parts ih =>
    have first := all part List.mem_cons_self
    have others := ih fun other member => all other (List.mem_cons_of_mem part member)
    cases parts with
    | nil => exact printable_append.mpr ⟨first, last⟩
    | cons next parts =>
      rw [closedBy, printable_append, printable_cons]
      exact ⟨first, by decide, others⟩

/-- No text of a value goes over more than one line. -/
theorem printable_text : ∀ value, Printable (text value)
  | .null => by simp [text, render, Printable]
  | .bool value => by cases value <;> simp [text, render, Printable]
  | .number mantissa places => printable_number mantissa places
  | .string content => printable_quote content
  | .array items => by
    rw [text_array, printable_cons]
    refine ⟨by decide, printable_closedBy (by decide) ?_⟩
    rintro part member
    obtain ⟨item, inside, rfl⟩ := List.mem_map.mp member
    exact printable_text item
  | .object fields => by
    rw [text_object, printable_cons]
    refine ⟨by decide, printable_closedBy (by decide) ?_⟩
    rintro part member
    obtain ⟨⟨name, value⟩, inside, rfl⟩ := List.mem_map.mp member
    rw [fieldText, printable_append, printable_cons]
    exact ⟨printable_quote name, by decide, printable_text value⟩
termination_by value => value
decreasing_by
  · have smaller := List.sizeOf_lt_of_mem inside
    simp only [Json.array.sizeOf_spec]
    omega
  · have smaller := List.sizeOf_lt_of_mem inside
    simp only [Prod.mk.sizeOf_spec] at smaller
    simp only [Json.object.sizeOf_spec]
    omega

theorem newline_not_mem_text (value : Json) : '\n' ∉ text value :=
  fun member => absurd (printable_text value '\n' member) (by decide)

end KeyholeMarkup.Json

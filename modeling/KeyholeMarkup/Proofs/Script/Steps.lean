import KeyholeMarkup.Proofs.Script.Kept
import KeyholeMarkup.Proofs.Script.Layout

/-! Single steps of the reader: names, the beginnings of arguments that they exclude, commas and
parentheses, attributes, and text and comments in their slots. -/
namespace KeyholeMarkup.Script
open KeyholeMarkup.Text KeyholeMarkup.Xml

namespace Reading

theorem continues_of_starts {c : Char} (h : startsIdentifier c) : continuesIdentifier c := by
  simp only [startsIdentifier, continuesIdentifier, isAlphanumeric, Bool.or_eq_true] at h ⊢
  rcases h with under | letter
  · exact .inl under
  · exact .inr (.inl letter)

theorem chars_of_isIdentifier {name : String} (h : isIdentifier name) :
    name.toList ≠ [] ∧ ∀ c ∈ name.toList, continuesIdentifier c := by
  unfold isIdentifier at h
  cases chars : name.toList with
  | nil => simp [chars] at h
  | cons first rest =>
    simp only [chars, Bool.and_eq_true, List.all_eq_true] at h
    refine ⟨List.cons_ne_nil _ _, fun c member => ?_⟩
    rcases List.mem_cons.mp member with rfl | later
    · exact continues_of_starts h.1.1.1
    · exact h.1.1.2 c later

theorem identifier?_append {name : List Char} (filled : name ≠ [])
    (chars : ∀ c ∈ name, continuesIdentifier c) {mark : Char} (other : continuesIdentifier mark = false)
    (rest : List Char) : identifier? (name ++ mark :: rest) = some (name, mark :: rest) := by
  have taken : (name ++ mark :: rest).takeWhile continuesIdentifier = name := by
    rw [List.takeWhile_append_of_pos chars]
    simp [other]
  have left : (name ++ mark :: rest).dropWhile continuesIdentifier = mark :: rest := by
    rw [List.dropWhile_append_of_pos chars]
    simp [other]
  unfold identifier?
  rw [taken, left]
  cases name with
  | nil => exact absurd rfl filled
  | cons c name => rfl

theorem not_continues_of_isQuote {c : Char} (h : isQuote c) : continuesIdentifier c = false := by
  rcases eq_of_isQuote h with rfl | rfl <;> decide

theorem startsString_name {name : List Char} (filled : name ≠ [])
    (chars : ∀ c ∈ name, continuesIdentifier c) (rest : List Char) :
    startsString (name ++ rest) = false := by
  cases name with
  | nil => exact absurd rfl filled
  | cons c name =>
    by_cases quoted : isQuote c
    · have allowed := chars c (by simp)
      rw [not_continues_of_isQuote quoted] at allowed
      simp at allowed
    · simpa [startsString] using quoted

theorem eat?_cons_name {t : Char} (other : continuesIdentifier t = false) (token : List Char)
    {name : List Char} (filled : name ≠ []) (chars : ∀ c ∈ name, continuesIdentifier c)
    (rest : List Char) : eat? (t :: token) (name ++ rest) = none := by
  cases name with
  | nil => exact absurd rfl filled
  | cons c name =>
    have allowed := chars c (by simp)
    have different : t ≠ c := by
      rintro rfl
      rw [other] at allowed
      simp at allowed
    simp [eat?, different]

theorem eq_append_of_eat? {token text rest : List Char} (h : eat? token text = some rest) :
    text = token ++ rest := by
  induction token generalizing text with
  | nil => simpa [eat?] using h
  | cons t token ih =>
    cases text with
    | nil => simp [eat?] at h
    | cons c text =>
      simp only [eat?] at h
      split at h
      · rename_i same
        rw [ih h, same]
        rfl
      · simp at h

/-- Only the name `etree` with a point behind it can begin a comment call. -/
theorem eat?_commentToken_name {name : List Char} (filled : name ≠ [])
    (chars : ∀ c ∈ name, continuesIdentifier c) {mark : Char} (other : continuesIdentifier mark = false)
    (different : name ≠ "etree".toList ∨ mark ≠ '.') (rest : List Char) :
    eat? commentToken (name ++ mark :: rest) = none := by
  cases found : eat? commentToken (name ++ mark :: rest) with
  | none => rfl
  | some tail =>
    have token := eq_append_of_eat? found
    have read := identifier?_append filled chars other rest
    have named : "etree".toList.all continuesIdentifier := by decide
    have comment : identifier? ("etree".toList ++ '.' :: ("Comment(".toList ++ tail)) = _ :=
      identifier?_append (by decide) (List.all_eq_true.mp named) (by decide) _
    rw [token] at read
    have equal := read.symm.trans comment
    simp only [Option.some.injEq, Prod.mk.injEq, List.cons.injEq] at equal
    rcases different with ne | ne
    · exact absurd equal.1 ne
    · exact absurd equal.2.1 ne

theorem eat?_cons_of_ne {t c : Char} (different : t ≠ c) (token text : List Char) :
    eat? (t :: token) (c :: text) = none := by
  simp [eat?, different]

section Steps
variable (builders : Builders) (calls : List Call) (call : Call)

theorem arguments_eq (text : List Char) : arguments builders calls call text =
    match eat? [')'] (trimLeft text) with
    | some rest => leave builders calls call rest
    | none =>
      match item? builders (trimLeft text) with
      | none => none
      | some (.opening inner, rest) => arguments builders (call :: calls) inner rest
      | some (.argument argument, rest) =>
        (call.add? argument).bind fun call => proceed builders calls call rest := by
  rw [arguments]
  split
  · rename_i closed
    simp only [closed]
  · rename_i opened
    simp only [opened]
    split <;> rename_i found <;> simp only [found]

theorem proceed_eq (text : List Char) : proceed builders calls call text =
    match eat? [','] (trimLeft text) with
    | some rest => arguments builders calls call rest
    | none => (eat? [')'] (trimLeft text)).bind fun rest => leave builders calls call rest := by
  rw [proceed]
  split
  · rename_i comma
    simp only [comma]
  · rename_i absent
    simp only [absent]
    split <;> rename_i closed <;> simp only [closed, Option.bind_some, Option.bind_none]

theorem arguments_blank {blank : List Char} (h : allBlank blank) (text : List Char) :
    arguments builders calls call (blank ++ text) = arguments builders calls call text := by
  rw [arguments_eq, arguments_eq, trimLeft_append_of_allBlank h]

theorem proceed_blank {blank : List Char} (h : allBlank blank) (text : List Char) :
    proceed builders calls call (blank ++ text) = proceed builders calls call text := by
  rw [proceed_eq, proceed_eq, trimLeft_append_of_allBlank h]

theorem arguments_close (rest : List Char) :
    arguments builders calls call (')' :: rest) = leave builders calls call rest := by
  rw [arguments_eq]
  rfl

theorem proceed_close (rest : List Char) :
    proceed builders calls call (')' :: rest) = leave builders calls call rest := by
  rw [proceed_eq]
  rfl

theorem proceed_comma (rest : List Char) :
    proceed builders calls call (',' :: rest) = arguments builders calls call rest := by
  rw [proceed_eq]
  rfl

variable {builders}

theorem arguments_argument {text rest : List Char} {argument : Argument}
    (inner : eat? [')'] (trimLeft text) = none)
    (found : item? builders (trimLeft text) = some (.argument argument, rest)) :
    arguments builders calls call text =
      (call.add? argument).bind fun call => proceed builders calls call rest := by
  rw [arguments_eq, inner, found]

/-- A call that begins where an argument is due is read before the call around it goes on. -/
theorem arguments_opening {text rest : List Char} {first : Call}
    (inner : eat? [')'] (trimLeft text) = none)
    (found : item? builders (trimLeft text) = some (.opening first, rest)) :
    arguments builders calls call text = arguments builders (call :: calls) first rest := by
  rw [arguments_eq, inner, found]

theorem eat?_of_startsString {t : Char} {token text : List Char} (other : isQuote t = false)
    (starts : startsString text) : eat? (t :: token) text = none := by
  cases text with
  | nil => rfl
  | cons c text =>
    apply eat?_cons_of_ne
    rintro rfl
    rw [startsString, List.head?_cons, Option.any_some, other] at starts
    simp at starts

theorem arguments_strings {text body rest : List Char} (starts : startsString (trimLeft text))
    (found : strings? (trimLeft text) = some (body, rest)) :
    arguments builders calls call text =
      (call.add? (.text body)).bind fun call => proceed builders calls call rest := by
  apply arguments_argument
  · exact eat?_of_startsString (by decide) starts
  · rw [item?, if_pos starts, found]
    rfl

end Steps

def blankCodes : List Nat :=
  [9, 10, 11, 12, 13, 0x20, 0x85, 0xA0, 0x1680, 0x2000, 0x2001, 0x2002, 0x2003, 0x2004, 0x2005,
    0x2006, 0x2007, 0x2008, 0x2009, 0x200A, 0x2028, 0x2029, 0x202F, 0x205F, 0x3000]

theorem toNat_mem_blankCodes {c : Char} (h : isBlank c) : c.toNat ∈ blankCodes := by
  simp only [isBlank, Bool.or_eq_true, Bool.and_eq_true, decide_eq_true_eq, beq_iff_eq] at h
  simp only [blankCodes, List.mem_cons, List.not_mem_nil, or_false]
  omega

theorem not_continues_of_isBlank {c : Char} (h : isBlank c) : continuesIdentifier c = false := by
  have all : ∀ code ∈ blankCodes, continuesIdentifier (Char.ofNat code) = false := by decide +kernel
  have this := all c.toNat (toNat_mem_blankCodes h)
  rwa [Char.ofNat_toNat] at this

theorem trimLeft_name {name : List Char} (filled : name ≠ [])
    (chars : ∀ c ∈ name, continuesIdentifier c) (rest : List Char) :
    trimLeft (name ++ rest) = name ++ rest := by
  cases name with
  | nil => exact absurd rfl filled
  | cons c name =>
    by_cases blank : isBlank c
    · have allowed := chars c (by simp)
      rw [not_continues_of_isBlank blank] at allowed
      simp at allowed
    · simp [trimLeft, blank]

theorem item?_keywordArgument (builders : Builders) (entry : Attribute) (rest : List Char) :
    item? builders (keywordArgument entry ++ rest) =
      some (.argument (.attribute (keptAttribute entry)), ',' :: rest) := by
  unfold keywordArgument keptAttribute keptName
  split
  · rename_i keyword
    obtain ⟨filled, chars⟩ := chars_of_isIdentifier keyword.2
    have plain : Name.plain entry.name.localName = entry.name := by
      rw [Name.plain, ← keyword.1]
    simp only [List.append_assoc, List.cons_append, List.nil_append]
    rw [item?, startsString_name filled chars, eat?_cons_name (by decide) _ filled chars,
      eat?_commentToken_name filled chars (by decide) (.inr (by decide)),
      identifier?_append filled chars (by decide)]
    simp [eat?, string?_doubleQuoted, String.ofList_toList, plain]
  · simp only [List.append_assoc, List.cons_append, List.nil_append]
    have colon (tail : List Char) : trimLeft (": ".toList ++ tail) = ':' :: ' ' :: tail := rfl
    have brace (tail : List Char) : trimLeft ('}' :: tail) = '}' :: tail := rfl
    have value : trimLeft (' ' :: (literal entry.value.toList ++ '}' :: ',' :: rest)) =
        literal entry.value.toList ++ '}' :: ',' :: rest := by
      have gap (tail : List Char) : trimLeft (' ' :: tail) = trimLeft tail :=
        trimLeft_append_of_allBlank (show allBlank [' '] by decide) tail
      rw [gap, trimLeft_of_startsString (startsString_literal _ _)]
    have read : dictionary? (literal entry.name.clark.toList ++ (": ".toList ++
        (literal entry.value.toList ++ '}' :: ',' :: rest))) =
          some (⟨Name.ofClark entry.name.clark, none, entry.value⟩, ',' :: rest) := by
      unfold dictionary?
      rw [trimLeft_of_startsString (startsString_literal _ _), string?_literal]
      simp only [Option.bind_eq_bind, Option.bind_some, colon, eat?, if_true, value,
        string?_literal, brace, String.ofList_toList, Option.pure_def]
    rw [item?, if_neg (by simp [startsString, isQuote])]
    simp only [eat?, if_true]
    rw [read]
    rfl

theorem keywordArgument_starts (entry : Attribute) (rest : List Char) :
    trimLeft (keywordArgument entry ++ rest) = keywordArgument entry ++ rest ∧
      eat? [')'] (keywordArgument entry ++ rest) = none := by
  unfold keywordArgument
  split
  · rename_i keyword
    obtain ⟨filled, chars⟩ := chars_of_isIdentifier keyword.2
    simp only [List.append_assoc]
    exact ⟨trimLeft_name filled chars _, eat?_cons_name (by decide) _ filled chars _⟩
  · exact ⟨rfl, rfl⟩

theorem arguments_argumentLines (builders : Builders) (calls : List Call) (call : Call)
    {indent : List Char} (blank : allBlank indent) (attributes : List Attribute) (rest : List Char) :
    arguments builders calls call (argumentLines indent attributes ++ rest) =
      arguments builders calls
        { call with attributes := call.attributes ++ attributes.map keptAttribute } rest := by
  induction attributes generalizing call with
  | nil =>
    rw [List.map_nil, List.append_nil]
    rfl
  | cons entry attributes ih =>
    obtain ⟨trimmed, open'⟩ :=
      keywordArgument_starts entry ('\n' :: (argumentLines indent attributes ++ rest))
    have lines : argumentLines indent (entry :: attributes) ++ rest =
        indent ++ ([' ', ' '] ++ (keywordArgument entry ++
          '\n' :: (argumentLines indent attributes ++ rest))) := by
      simp [argumentLines]
    rw [lines, arguments_blank _ _ _ blank, arguments_blank _ _ _ (by decide)]
    rw [arguments_argument calls call (by rw [trimmed, open']) (by
      rw [trimmed]
      exact item?_keywordArgument builders entry _)]
    change proceed builders calls _ _ = _
    rw [proceed_comma]
    refine (arguments_blank _ _ _ (show allBlank ['\n'] by decide) _).trans ?_
    refine (ih _).trans ?_
    rw [List.append_assoc]
    rfl

theorem comment?_slot (comment : Comment) {indent : List Char} (blank : allBlank indent)
    (rest : List Char) :
    comment? ((Slot.ofText comment.text.toList indent).code ++ ')' :: rest) =
      some (keptComment comment, rest) := by
  have closing : trimLeft (')' :: rest) = ')' :: rest := rfl
  unfold comment? keptComment
  rcases Slot.holds_or_blank comment.text.toList blank with holds | empty
  · have starts := holds.starts (')' :: rest)
    obtain ⟨gap, spaces, read⟩ := holds.read (')' :: rest) rfl
    have open' : eat? [')'] (trimLeft ((Slot.ofText comment.text.toList indent).code ++ ')' :: rest)) =
        none := eat?_of_startsString (by decide) starts
    rw [open', read]
    simp only [Option.bind_eq_bind, Option.bind_some, trimLeft_append_of_allBlank spaces, closing]
    rfl
  · rw [trimLeft_append_of_allBlank empty.blank, empty.eq_nil]
    rfl

theorem item?_comment (builders : Builders) (comment : Comment) {indent : List Char}
    (blank : allBlank indent) (rest : List Char) :
    item? builders (commentCall (Slot.ofText comment.text.toList indent) ++ rest) =
      some (.argument (.node (.comment (keptComment comment))), rest) := by
  have token : commentCall (Slot.ofText comment.text.toList indent) ++ rest =
      commentToken ++ ((Slot.ofText comment.text.toList indent).code ++ ')' :: rest) := by
    unfold commentCall commentToken
    simp only [List.append_assoc, List.cons_append, List.nil_append]
  have name : commentToken = 'e' :: "tree.Comment(".toList := by decide
  have plain (tail : List Char) : startsString (commentToken ++ tail) = false := by
    rw [name]
    rfl
  have keyword (tail : List Char) : eat? ['*', '*', '{'] (commentToken ++ tail) = none := by
    rw [name, List.cons_append]
    exact eat?_cons_of_ne (show '*' ≠ 'e' by decide) _ _
  rw [token, item?, plain, keyword]
  simp only [eat?_append, comment?_slot comment blank]
  rfl

theorem arguments_comment (builders : Builders) (calls : List Call) (call : Call)
    (comment : Comment) {indent : List Char} (blank : allBlank indent) (rest : List Char) :
    arguments builders calls call
        (indent ++ (commentCall (Slot.ofText comment.text.toList indent) ++ ([',', '\n'] ++ rest))) =
      arguments builders calls
        { call with children := call.children ++ [.comment (keptComment comment)] } rest := by
  have trimmed (tail : List Char) :
      trimLeft (commentCall (Slot.ofText comment.text.toList indent) ++ tail) =
        commentCall (Slot.ofText comment.text.toList indent) ++ tail := rfl
  rw [arguments_blank _ _ _ blank, arguments_argument calls call rfl (by
    rw [trimmed]
    exact item?_comment builders comment blank _)]
  change proceed builders calls _ (',' :: (['\n'] ++ rest)) = _
  rw [proceed_comma, arguments_blank _ _ _ (by decide)]

end Reading
end KeyholeMarkup.Script

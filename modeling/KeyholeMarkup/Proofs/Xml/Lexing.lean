import KeyholeMarkup.Proofs.Xml.Positions
import KeyholeMarkup.Proofs.Xml.Reference

/-! Tokens of written markup. Every piece of markup is read as one token that holds it as written;
character data waits for the markup after it. -/
namespace KeyholeMarkup.Xml

/-- Characters that do not end the name they stand in, nor make it any other markup. -/
def isTagChar (c : Char) : Bool :=
  !isSpace c && !isSpecial c && c != '/' && c != '!' && c != '?' && c != '='

structure IsTagName (name : List Char) : Prop where
  nonempty : name ≠ []
  plain : ∀ c ∈ name, isTagChar c

namespace Markup

def isText : Markup → Bool
  | .text _ | .cdata _ => true
  | _ => false

def tagContent (name : String) (attributes : List (String × String)) : List Char :=
  name.toList ++ attributes.flatMap writeAttribute

def token : Markup → Token
  | .opening name attributes => .opening (tagContent name attributes)
  | .selfClosing name attributes => .selfClosing (tagContent name attributes)
  | .closing name => .closing name.toList
  | .text written => .text (escape written.toList)
  | .cdata written => .cdata written.toList
  | .comment written => .comment written.toList
  | .declaration => .other

/-- Markup that ends where it should. -/
def Clean : Markup → Prop
  | .opening name attributes | .selfClosing name attributes =>
    IsTagName name.toList ∧ ∀ entry ∈ attributes, IsTagName entry.1.toList
  | .closing name => IsTagName name.toList
  | .text written => written.toList ≠ []
  | .cdata written => ¬ [']', ']', '>'] <:+: written.toList
  | .comment written => ¬ ['-', '-', '>'] <:+: written.toList
  | .declaration => True

end Markup

namespace Lexer

/-- What a lexer holds, without positions: the text of the token at hand and the tokens before. -/
structure Within (lexer : Lexer) (mode : Mode) (raw : List Char) (done : List Token) : Prop where
  mode : lexer.mode = mode
  raw : lexer.raw = raw.reverse
  finished : lexer.finished.reverse.map (·.token) = done
  fault : lexer.fault = none

def textTokens (raw : List Char) : List Token := if raw.isEmpty then [] else [.text raw]

variable {lexer : Lexer} {mode after : Mode} {raw text : List Char} {done : List Token}

theorem within_initial : Within initial .text [] [] := ⟨rfl, rfl, rfl, rfl⟩

theorem Within.step_eq (within : lexer.Within mode raw done) (c : Char) :
    lexer.step c = lexer.advance c := by
  simp [step, within.fault]

theorem Within.keep (within : lexer.Within mode raw done) {c : Char}
    (advanced : lexer.advance c = lexer.keep c after) :
    (lexer.step c).Within after (raw ++ [c]) done := by
  rw [within.step_eq, advanced]
  exact ⟨rfl, by simp [Lexer.keep, within.raw], within.finished, within.fault⟩

theorem Within.finish (within : lexer.Within mode raw done) {c : Char} {token : Token}
    (advanced : lexer.advance c = lexer.finish token) :
    (lexer.step c).Within .text [] (done ++ [token]) := by
  rw [within.step_eq, advanced]
  exact ⟨rfl, rfl, by simp [Lexer.finish, ← within.finished], within.fault⟩

theorem Within.beginMarkup (within : lexer.Within .text raw done) :
    (lexer.step '<').Within .markup [] (done ++ textTokens raw) := by
  have advanced : lexer.advance '<' = lexer.beginMarkup := by simp [advance, within.mode]
  rw [within.step_eq, advanced]
  refine ⟨rfl, rfl, ?_, within.fault⟩
  cases raw with
  | nil => simp [Lexer.beginMarkup, textTokens, within.raw, ← within.finished]
  | cons c rest => simp [Lexer.beginMarkup, textTokens, within.raw, ← within.finished]

theorem Within.foldl (within : lexer.Within mode raw done)
    (keeps : ∀ (reached : Lexer) (before : List Char) (c : Char) (rest : List Char),
      text = before ++ c :: rest → reached.Within mode (raw ++ before) done →
      reached.advance c = reached.keep c mode) :
    (text.foldl step lexer).Within mode (raw ++ text) done := by
  induction text generalizing lexer raw with
  | nil => simpa using within
  | cons c rest ih =>
    have first := within.keep (keeps lexer [] c rest rfl (by simpa using within))
    rw [List.foldl_cons, List.append_cons]
    refine ih first fun reached before d tail split reachedWithin => ?_
    exact keeps reached (c :: before) d tail (by simp [split]) (by simpa using reachedWithin)

theorem Within.foldl_text (within : lexer.Within .text raw done) (plain : '<' ∉ text) :
    (text.foldl step lexer).Within .text (raw ++ text) done := by
  refine within.foldl fun reached before c rest split reachedWithin => ?_
  have ordinary : c ≠ '<' := by rintro rfl; simp [split] at plain
  simp [advance, reachedWithin.mode, ordinary]

theorem Within.foldl_tag (within : lexer.Within (.tag none) raw done)
    (plain : ∀ c ∈ text, c ≠ '>' ∧ c ≠ '"' ∧ c ≠ '\'') :
    (text.foldl step lexer).Within (.tag none) (raw ++ text) done := by
  refine within.foldl fun reached before c rest split reachedWithin => ?_
  obtain ⟨inside, double, single⟩ := plain c (by simp [split])
  simp [advance, reachedWithin.mode, stepTag, inside, double, single]

theorem Within.foldl_quoted {quote : Char} (within : lexer.Within (.tag (some quote)) raw done)
    (plain : quote ∉ text) :
    (text.foldl step lexer).Within (.tag (some quote)) (raw ++ text) done := by
  refine within.foldl fun reached before c rest split reachedWithin => ?_
  have ordinary : c ≠ quote := by rintro rfl; simp [split] at plain
  simp [advance, reachedWithin.mode, stepTag, ordinary]

end Lexer

theorem isTagChar_iff {c : Char} : isTagChar c = true ↔
    isSpace c = false ∧ isSpecial c = false ∧ c ≠ '/' ∧ c ≠ '!' ∧ c ≠ '?' ∧ c ≠ '=' := by
  simp [isTagChar, and_assoc]

theorem isSpecial_eq_false_iff {c : Char} : isSpecial c = false ↔
    c ≠ '&' ∧ c ≠ '<' ∧ c ≠ '>' ∧ c ≠ '\'' ∧ c ≠ '"' := by
  simp [isSpecial, and_assoc]

namespace Lexer

variable {lexer : Lexer} {mode after : Mode} {raw text : List Char} {done : List Token}

theorem Within.foldl_name (within : lexer.Within (.tag none) raw done)
    (plain : ∀ c ∈ text, isTagChar c) :
    (text.foldl step lexer).Within (.tag none) (raw ++ text) done := by
  refine within.foldl_tag fun c member => ?_
  have special := isSpecial_eq_false_iff.mp (isTagChar_iff.mp (plain c member)).2.1
  exact ⟨special.2.2.1, special.2.2.2.2, special.2.2.2.1⟩

theorem Within.open_quote (within : lexer.Within (.tag none) raw done) :
    (lexer.step '"').Within (.tag (some '"')) (raw ++ ['"']) done :=
  within.keep (by simp [advance, within.mode, stepTag])

theorem Within.close_quote (within : lexer.Within (.tag (some '"')) raw done) :
    (lexer.step '"').Within (.tag none) (raw ++ ['"']) done :=
  within.keep (by simp [advance, within.mode, stepTag])

theorem Within.foldl_attribute (within : lexer.Within (.tag none) raw done)
    (entry : String × String) (named : IsTagName entry.1.toList) :
    ((Markup.writeAttribute entry).foldl step lexer).Within (.tag none)
      (raw ++ Markup.writeAttribute entry) done := by
  have space : ([' '].foldl step lexer).Within (.tag none) (raw ++ [' ']) done :=
    within.foldl_tag (by simp)
  have name := space.foldl_name named.plain
  have equals := name.foldl_tag (show ∀ c ∈ ['='], c ≠ '>' ∧ c ≠ '"' ∧ c ≠ '\'' by simp)
  have value := equals.open_quote.foldl_quoted (not_mem_escape entry.2.toList (by simp))
  have closed := value.close_quote
  have written : Markup.writeAttribute entry =
      [' '] ++ entry.1.toList ++ ['='] ++ ['"'] ++ escape entry.2.toList ++ ['"'] := by
    simp [Markup.writeAttribute]
  rw [written]
  simp only [List.foldl_append, ← List.append_assoc]
  exact closed

theorem Within.foldl_attributes (within : lexer.Within (.tag none) raw done)
    (attributes : List (String × String))
    (named : ∀ entry ∈ attributes, IsTagName entry.1.toList) :
    ((attributes.flatMap Markup.writeAttribute).foldl step lexer).Within (.tag none)
      (raw ++ attributes.flatMap Markup.writeAttribute) done := by
  induction attributes generalizing lexer raw with
  | nil => simpa using within
  | cons entry rest ih =>
    have first := within.foldl_attribute entry (named entry (by simp))
    have others := ih first fun other member => named other (by simp [member])
    simpa [List.foldl_append] using others

theorem Within.foldl_tagName (within : lexer.Within .markup [] done) {name : List Char}
    (named : IsTagName name) : (name.foldl step lexer).Within (.tag none) name done := by
  cases name with
  | nil => exact absurd rfl named.nonempty
  | cons c rest =>
    obtain ⟨-, special, -, bang, mark, -⟩ := isTagChar_iff.mp (named.plain c (by simp))
    obtain ⟨-, -, inside, single, double⟩ := isSpecial_eq_false_iff.mp special
    have advanced : lexer.advance c = lexer.keep c (.tag none) := by
      simp [advance, within.mode, stepTag, bang, mark, inside, single, double]
    have first := within.keep advanced
    exact first.foldl_name fun d member => named.plain d (by simp [member])

theorem Within.foldl_tagContent (within : lexer.Within .markup [] done) {name : String}
    {attributes : List (String × String)} (named : IsTagName name.toList)
    (others : ∀ entry ∈ attributes, IsTagName entry.1.toList) :
    ((Markup.tagContent name attributes).foldl step lexer).Within (.tag none)
      (Markup.tagContent name attributes) done := by
  rw [Markup.tagContent, List.foldl_append]
  exact (within.foldl_tagName named).foldl_attributes attributes others

theorem Within.finish_tag (within : lexer.Within (.tag none) raw done) :
    (lexer.step '>').Within .text [] (done ++ [tagToken raw.reverse]) :=
  within.finish (by simp [advance, within.mode, stepTag, within.raw])

theorem closingName_eq_self {name : List Char} (named : IsTagName name) :
    closingName name = name := by
  have spaceless : name.reverse.dropWhile isSpace = name.reverse := by
    cases reversed : name.reverse with
    | nil => rfl
    | cons c rest =>
      have member : c ∈ name := List.mem_reverse.mp (reversed ▸ List.mem_cons_self)
      simp [(isTagChar_iff.mp (named.plain c member)).1]
  simp [closingName, spaceless]

theorem tagToken_closing {name : List Char} (named : IsTagName name) :
    tagToken ('/' :: name).reverse = .closing name := by
  simp [tagToken, closingName_eq_self named]

theorem tagContent_split {name : String} (attributes : List (String × String))
    (named : IsTagName name.toList) :
    (∃ c rest, Markup.tagContent name attributes = c :: rest ∧ c ≠ '/') ∧
      ∃ c before, Markup.tagContent name attributes = before ++ [c] ∧ c ≠ '/' := by
  have noSlash : ∀ c ∈ name.toList, c ≠ '/' := fun c member =>
    (isTagChar_iff.mp (named.plain c member)).2.2.1
  constructor
  · obtain ⟨c, rest, split⟩ := List.exists_cons_of_ne_nil named.nonempty
    exact ⟨c, rest ++ attributes.flatMap Markup.writeAttribute, by simp [Markup.tagContent, split],
      noSlash c (by simp [split])⟩
  · obtain rfl | ⟨earlier, last, rfl⟩ := List.eq_nil_or_concat attributes
    · obtain ⟨before, c, split⟩ := (List.eq_nil_or_concat name.toList).resolve_left named.nonempty
      exact ⟨c, before, by simp [Markup.tagContent, split], noSlash c (by simp [split])⟩
    · refine ⟨'"', name.toList ++ (earlier.flatMap Markup.writeAttribute ++
        ' ' :: (last.1.toList ++ '=' :: '"' :: escape last.2.toList)), ?_, by decide⟩
      simp [Markup.tagContent, Markup.writeAttribute]

theorem tagToken_opening {name : String} (attributes : List (String × String))
    (named : IsTagName name.toList) :
    tagToken (Markup.tagContent name attributes).reverse =
      .opening (Markup.tagContent name attributes) := by
  obtain ⟨⟨c, rest, begins, noSlash⟩, d, before, ends, noSlashEnd⟩ :=
    tagContent_split attributes named
  unfold tagToken
  split
  · rename_i h
    rw [List.reverse_reverse, begins] at h
    exact absurd (List.cons.inj h).1 noSlash
  · split
    · rename_i h
      rw [ends, List.reverse_append] at h
      exact absurd (List.cons.inj h).1 noSlashEnd
    · rw [List.reverse_reverse]

theorem tagToken_selfClosing {name : String} (attributes : List (String × String))
    (named : IsTagName name.toList) :
    tagToken (Markup.tagContent name attributes ++ ['/']).reverse =
      .selfClosing (Markup.tagContent name attributes) := by
  obtain ⟨⟨c, rest, begins, noSlash⟩, -⟩ := tagContent_split attributes named
  unfold tagToken
  split
  · rename_i h
    rw [List.reverse_reverse, begins] at h
    exact absurd (List.cons.inj h).1 noSlash
  · simp

theorem foldl_markup (lexer : Lexer) (content : List Char) :
    ('<' :: (content ++ ['>'])).foldl step lexer =
      (content.foldl step (lexer.step '<')).step '>' := by
  rw [List.foldl_cons, List.foldl_append]
  rfl

theorem within_opening (within : lexer.Within .text raw done) {name : String}
    {attributes : List (String × String)} (clean : (Markup.opening name attributes).Clean) :
    ((Markup.opening name attributes).render.foldl step lexer).Within .text []
      (done ++ textTokens raw ++ [(Markup.opening name attributes).token]) := by
  have finished := (within.beginMarkup.foldl_tagContent clean.1 clean.2).finish_tag
  rw [tagToken_opening attributes clean.1, ← foldl_markup] at finished
  exact finished

theorem render_selfClosing (name : String) (attributes : List (String × String)) :
    (Markup.selfClosing name attributes).render =
      '<' :: (Markup.tagContent name attributes ++ ['/'] ++ ['>']) := by
  have written : (Markup.selfClosing name attributes).render =
      '<' :: Markup.tagContent name attributes ++ ['/', '>'] := rfl
  simp [written]

theorem within_selfClosing (within : lexer.Within .text raw done) {name : String}
    {attributes : List (String × String)} (clean : (Markup.selfClosing name attributes).Clean) :
    ((Markup.selfClosing name attributes).render.foldl step lexer).Within .text []
      (done ++ textTokens raw ++ [(Markup.selfClosing name attributes).token]) := by
  have content := within.beginMarkup.foldl_tagContent clean.1 clean.2
  have slash := content.foldl_tag (show ∀ c ∈ ['/'], c ≠ '>' ∧ c ≠ '"' ∧ c ≠ '\'' by simp)
  have finished := slash.finish_tag
  rw [tagToken_selfClosing attributes clean.1, ← List.foldl_append, ← foldl_markup,
    ← render_selfClosing] at finished
  exact finished

theorem render_closing (name : String) :
    (Markup.closing name).render = '<' :: ('/' :: name.toList ++ ['>']) := rfl

theorem within_closing (within : lexer.Within .text raw done) {name : String}
    (clean : (Markup.closing name).Clean) :
    ((Markup.closing name).render.foldl step lexer).Within .text []
      (done ++ textTokens raw ++ [(Markup.closing name).token]) := by
  have begun := within.beginMarkup
  have slash : ((lexer.step '<').step '/').Within (.tag none) ['/'] (done ++ textTokens raw) :=
    begun.keep (by simp [advance, begun.mode, stepTag])
  have finished := (slash.foldl_name clean.plain).finish_tag
  rw [List.singleton_append, tagToken_closing clean, ← List.foldl_cons, ← foldl_markup,
    ← render_closing] at finished
  exact finished

theorem Within.foldl_opening (within : lexer.Within mode raw done) (text : List Char)
    (keeps : ∀ (reached : Lexer) (c : Char), reached.mode = mode → c ≠ '>' →
      reached.advance c = reached.keep c mode)
    (plain : '>' ∉ text) : (text.foldl step lexer).Within mode (raw ++ text) done := by
  refine within.foldl fun reached before c rest split reachedWithin => ?_
  refine keeps reached c reachedWithin.mode ?_
  rintro rfl
  simp [split] at plain

theorem advance_comment (reached : Lexer) (c : Char) (mode : reached.mode = .comment)
    (inside : c ≠ '>') : reached.advance c = reached.keep c .comment := by
  simp [advance, mode, inside]

theorem advance_cdata (reached : Lexer) (c : Char) (mode : reached.mode = .cdata)
    (inside : c ≠ '>') : reached.advance c = reached.keep c .cdata := by
  simp [advance, mode, inside]

theorem advance_instruction (reached : Lexer) (c : Char) (mode : reached.mode = .instruction)
    (inside : c ≠ '>') : reached.advance c = reached.keep c .instruction := by
  simp [advance, mode, inside]

theorem Within.foldl_free {mark : Char} {opening : List Char}
    (within : lexer.Within mode opening done) (free : ¬ [mark, mark, '>'] <:+: text)
    (keeps : ∀ (reached : Lexer) (before : List Char) (c : Char),
      reached.Within mode (opening ++ before) done →
      (c = '>' → ¬ ∃ earlier, before = earlier ++ [mark, mark]) →
      reached.advance c = reached.keep c mode) :
    (text.foldl step lexer).Within mode (opening ++ text) done := by
  refine within.foldl fun reached before c rest split reachedWithin => ?_
  refine keeps reached before c reachedWithin ?_
  rintro rfl ⟨earlier, rfl⟩
  exact free ⟨earlier, rest, by simp [split]⟩

theorem Within.foldl_comment {written : List Char}
    (within : lexer.Within .comment ['!', '-', '-'] done)
    (free : ¬ ['-', '-', '>'] <:+: written) :
    (written.foldl step lexer).Within .comment (['!', '-', '-'] ++ written) done := by
  refine within.foldl_free free fun reached before c reachedWithin apart => ?_
  by_cases inside : c = '>'
  · have open_ : ¬ (reached.raw.length > 4 ∧ reached.raw.take 2 = ['-', '-']) := by
      rintro ⟨long, ends⟩
      rw [reachedWithin.raw] at long ends
      exact apart inside (ends_of_take ends (by simp at long; omega))
    simp only [advance, reachedWithin.mode, inside]
    rw [if_neg (by simpa using open_)]
  · exact advance_comment reached c reachedWithin.mode inside

theorem Within.finish_comment {written : List Char}
    (within : lexer.Within .comment (['!', '-', '-'] ++ written ++ ['-', '-']) done) :
    (lexer.step '>').Within .text [] (done ++ [.comment written]) := by
  refine within.finish ?_
  have held : lexer.raw = '-' :: '-' :: (written.reverse ++ ['-', '-', '!']) := by
    simp [within.raw]
  have read : lexer.raw.reverse = '!' :: '-' :: '-' :: (written ++ ['-', '-']) := by
    simp [within.raw]
  have closes : lexer.advance '>' = lexer.finishComment := by
    simp [advance, within.mode, held]
  rw [closes, finishComment, read]
  simp

theorem within_comment (within : lexer.Within .text raw done) {written : String}
    (clean : (Markup.comment written).Clean) :
    ((Markup.comment written).render.foldl step lexer).Within .text []
      (done ++ textTokens raw ++ [(Markup.comment written).token]) := by
  have begun := within.beginMarkup
  have bang : ((lexer.step '<').step '!').Within .declaration ['!'] (done ++ textTokens raw) :=
    begun.keep (by simp [advance, begun.mode])
  have dash : (((lexer.step '<').step '!').step '-').Within .comment ['!', '-']
      (done ++ textTokens raw) :=
    bang.keep (by simp [advance, bang.mode])
  have opened := (dash.foldl_opening ['-'] advance_comment (by simp)).foldl_comment clean
  have finished := (opened.foldl_opening ['-', '-'] advance_comment (by simp)).finish_comment
  have rendered : (Markup.comment written).render =
    ['<', '!', '-', '-'] ++ written.toList ++ ['-', '-', '>'] := rfl
  rw [rendered, List.foldl_append, List.foldl_append]
  exact finished

theorem Within.foldl_cdata {written : List Char}
    (within : lexer.Within .cdata ['!', '[', 'C', 'D', 'A', 'T', 'A', '['] done)
    (free : ¬ [']', ']', '>'] <:+: written) :
    (written.foldl step lexer).Within .cdata
      (['!', '[', 'C', 'D', 'A', 'T', 'A', '['] ++ written) done := by
  refine within.foldl_free free fun reached before c reachedWithin apart => ?_
  by_cases inside : c = '>'
  · have unclosed : reached.raw.take 2 ≠ [']', ']'] := by
      intro ends
      rw [reachedWithin.raw] at ends
      refine apart inside (ends_of_take ends ?_)
      match before with
      | [] => simp at ends
      | [d] => simp at ends
      | _ :: _ :: _ => simp
    simp [advance, reachedWithin.mode, unclosed]
  · exact advance_cdata reached c reachedWithin.mode inside

theorem Within.finish_cdata {written : List Char}
    (within : lexer.Within .cdata
      (['!', '[', 'C', 'D', 'A', 'T', 'A', '['] ++ written ++ [']', ']']) done) :
    (lexer.step '>').Within .text [] (done ++ [.cdata written]) := by
  refine within.finish ?_
  have held : lexer.raw = ']' :: ']' ::
      (written.reverse ++ ['[', 'A', 'T', 'A', 'D', 'C', '[', '!']) := by
    simp [within.raw]
  have read : lexer.raw.reverse =
      '!' :: '[' :: 'C' :: 'D' :: 'A' :: 'T' :: 'A' :: '[' :: (written ++ [']', ']']) := by
    simp [within.raw]
  have closes : lexer.advance '>' = lexer.finishCdata := by
    simp [advance, within.mode, held]
  rw [closes, finishCdata, read]
  simp

theorem within_cdata (within : lexer.Within .text raw done) {written : String}
    (clean : (Markup.cdata written).Clean) :
    ((Markup.cdata written).render.foldl step lexer).Within .text []
      (done ++ textTokens raw ++ [(Markup.cdata written).token]) := by
  have begun := within.beginMarkup
  have bang : ((lexer.step '<').step '!').Within .declaration ['!'] (done ++ textTokens raw) :=
    begun.keep (by simp [advance, begun.mode])
  have bracket : (((lexer.step '<').step '!').step '[').Within .cdata ['!', '[']
      (done ++ textTokens raw) :=
    bang.keep (by simp [advance, bang.mode])
  have opened := (bracket.foldl_opening ['C', 'D', 'A', 'T', 'A', '['] advance_cdata
    (by simp)).foldl_cdata clean
  have finished := (opened.foldl_opening [']', ']'] advance_cdata (by simp)).finish_cdata
  have rendered : (Markup.cdata written).render =
    ['<', '!', '[', 'C', 'D', 'A', 'T', 'A', '['] ++ written.toList ++ [']', ']', '>'] := rfl
  rw [rendered, List.foldl_append, List.foldl_append]
  exact finished

theorem Within.finish_instruction {written : List Char}
    (within : lexer.Within .instruction (['?'] ++ written ++ ['?']) done) :
    (lexer.step '>').Within .text [] (done ++ [.other]) := by
  refine within.finish ?_
  have held : lexer.raw = '?' :: (written.reverse ++ ['?']) := by simp [within.raw]
  simp [advance, within.mode, held, finishInstruction]

theorem within_declaration (within : lexer.Within .text raw done) :
    (Markup.declaration.render.foldl step lexer).Within .text []
      (done ++ textTokens raw ++ [Markup.declaration.token]) := by
  have begun := within.beginMarkup
  have mark : ((lexer.step '<').step '?').Within .instruction ['?'] (done ++ textTokens raw) :=
    begun.keep (by simp [advance, begun.mode])
  have text := mark.foldl_opening "xml version=\"1.0\" encoding=\"UTF-8\"".toList
    advance_instruction (by decide)
  have finished := (text.foldl_opening ['?'] advance_instruction (by simp)).finish_instruction
  have rendered : Markup.declaration.render =
    ['<', '?'] ++ "xml version=\"1.0\" encoding=\"UTF-8\"".toList ++ ['?', '>'] := by decide
  rw [rendered, List.foldl_append, List.foldl_append]
  exact finished

/-- Each piece of markup but text is one token more. -/
theorem within_render (within : lexer.Within .text raw done) {markup : Markup}
    (clean : markup.Clean) (apart : ∀ written, markup ≠ .text written) :
    (markup.render.foldl step lexer).Within .text [] (done ++ textTokens raw ++ [markup.token]) := by
  cases markup with
  | opening name attributes => exact within_opening within clean
  | selfClosing name attributes => exact within_selfClosing within clean
  | closing name => exact within_closing within clean
  | text written => exact absurd rfl (apart written)
  | cdata written => exact within_cdata within clean
  | comment written => exact within_comment within clean
  | declaration => exact within_declaration within

/-- Character data that the text ends with is a token, too. -/
theorem Within.complete (within : lexer.Within .text raw done) :
    lexer.complete.finished.reverse.map (·.token) = done ++ textTokens raw ∧
      lexer.complete.fault = none := by
  cases raw with
  | nil => simp [Lexer.complete, within.fault, within.mode, within.raw, textTokens, within.finished]
  | cons c rest =>
    simp [Lexer.complete, within.fault, within.mode, within.raw, textTokens, ← within.finished]

end Lexer
end KeyholeMarkup.Xml

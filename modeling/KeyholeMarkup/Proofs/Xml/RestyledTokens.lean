import KeyholeMarkup.Proofs.Xml.LineEnds
import KeyholeMarkup.Xml.Token
import Mathlib.Data.List.Forall2

/-! Tokens of a text with other line ends. It is cut into the same tokens, each of them with these
line ends. -/
namespace KeyholeMarkup.Xml
open KeyholeMarkup.Text

/-- A token and the same one with other line ends. -/
inductive Token.Restyled (ends : List Char) : Token → Token → Prop
  | text {raw} : '\r' ∉ raw → Restyled ends (.text raw) (.text (withLineEnds ends raw))
  | opening {content} : '\r' ∉ content →
    Restyled ends (.opening content) (.opening (withLineEnds ends content))
  | selfClosing {content} : '\r' ∉ content →
    Restyled ends (.selfClosing content) (.selfClosing (withLineEnds ends content))
  | closing {name} : '\r' ∉ name → Restyled ends (.closing name) (.closing (withLineEnds ends name))
  | cdata {raw} : '\r' ∉ raw → Restyled ends (.cdata raw) (.cdata (withLineEnds ends raw))
  | comment {raw} : '\r' ∉ raw → Restyled ends (.comment raw) (.comment (withLineEnds ends raw))
  | other : Restyled ends .other .other

/-- The mode after a character that begins or ends a line. -/
def Mode.afterBreak : Mode → Mode
  | .markup => .tag none
  | mode => mode

theorem Mode.afterBreak_afterBreak (mode : Mode) : mode.afterBreak.afterBreak = mode.afterBreak := by
  cases mode <;> rfl

theorem Mode.afterBreak_ne_declaration {mode : Mode} (inside : mode ≠ .declaration) :
    mode.afterBreak ≠ .declaration := by
  cases mode with
  | declaration => exact absurd rfl inside
  | _ => nofun

namespace Lexer

/-- What is held in a mode when it has been reached from the start of a text. -/
def Fitting : Mode → List Char → Prop
  | .markup, raw => raw = []
  | .declaration, raw => raw = ['!']
  | .comment, raw => ['-', '!'] <:+ raw
  | .tag (some quote), _ => quote = '"' ∨ quote = '\''
  | _, _ => True

/-- A lexer and the one that has read the same text with other line ends. -/
structure Restyled (ends : List Char) (first second : Lexer) : Prop where
  mode : second.mode = first.mode
  raw : second.raw = withLineEnds ends.reverse first.raw
  clean : '\r' ∉ first.raw
  fitting : Fitting first.mode first.raw
  tokens : List.Forall₂ (fun lexeme other => Token.Restyled ends lexeme.token other.token)
    first.finished second.finished
  fault : second.fault.map (·.1) = first.fault.map (·.1)

variable {ends : List Char} {first second : Lexer} {c : Char} {mode : Mode}
  {token restyledToken : Token}

theorem restyled_initial (ends : List Char) : Restyled ends initial initial :=
  ⟨rfl, rfl, by simp [initial], trivial, .nil, rfl⟩

namespace Restyled

variable (restyled : Restyled ends first second)
include restyled

theorem reverse_raw : second.raw.reverse = withLineEnds ends first.raw.reverse := by
  rw [restyled.raw, reverse_withLineEnds, List.reverse_reverse]

theorem clean_reverse : '\r' ∉ first.raw.reverse := by simpa using restyled.clean

theorem isEmpty_raw (breaks : IsBreak ends) : second.raw.isEmpty = first.raw.isEmpty := by
  rw [restyled.raw, isEmpty_withLineEnds breaks.reverse]

theorem textToken : Token.Restyled ends (.text first.raw.reverse) (.text second.raw.reverse) := by
  rw [restyled.reverse_raw]
  exact .text restyled.clean_reverse

theorem keep (notFeed : c ≠ '\n') (notReturn : c ≠ '\r') (fitting : Fitting mode (c :: first.raw)) :
    Restyled ends (first.keep c mode) (second.keep c mode) := by
  refine ⟨rfl, ?_, ?_, fitting, restyled.tokens, restyled.fault⟩
  · rw [Lexer.keep, Lexer.keep, restyled.raw, withLineEnds_cons notFeed]
  · simp [Lexer.keep, restyled.clean, Ne.symm notReturn]

theorem fail (fault : LexicalFault) (offset place : Nat) :
    Restyled ends (first.fail fault offset) (second.fail fault place) :=
  ⟨restyled.mode, restyled.raw, restyled.clean, restyled.fitting, restyled.tokens, rfl⟩

theorem finish (tokens : Token.Restyled ends token restyledToken) :
    Restyled ends (first.finish token) (second.finish restyledToken) :=
  ⟨rfl, rfl, by simp [Lexer.finish], trivial, .cons tokens restyled.tokens, restyled.fault⟩

theorem beginMarkup (breaks : IsBreak ends) :
    Restyled ends first.beginMarkup second.beginMarkup := by
  refine ⟨rfl, rfl, by simp [Lexer.beginMarkup], rfl, ?_, restyled.fault⟩
  unfold Lexer.beginMarkup
  simp only [restyled.isEmpty_raw breaks]
  split
  · exact restyled.tokens
  · exact .cons restyled.textToken restyled.tokens

end Restyled

theorem restyled_closingName (breaks : IsBreak ends) (content : List Char) :
    closingName (withLineEnds ends content) = withLineEnds ends (closingName content) := by
  unfold closingName
  rw [reverse_withLineEnds, dropWhile_withLineEnds breaks.reverse (by decide),
    reverse_withLineEnds, List.reverse_reverse]
  simp only [isEmpty_withLineEnds breaks]
  split <;> rfl

theorem clean_closingName {content : List Char} (clean : '\r' ∉ content) :
    '\r' ∉ closingName content := by
  unfold closingName
  simp only
  split
  · exact clean
  · intro member
    exact clean (List.mem_reverse.mp ((List.dropWhile_sublist _).subset (List.mem_reverse.mp member)))

theorem tagToken_of_closing {raw name : List Char} (written : raw.reverse = '/' :: name) :
    tagToken raw = .closing (closingName name) := by
  simp only [tagToken, written]

theorem tagToken_of_selfClosing {raw : List Char} (opens : ¬ ['/'] <+: ('/' :: raw).reverse) :
    tagToken ('/' :: raw) = .selfClosing raw.reverse := by
  unfold tagToken
  split
  · rename_i name written
    exact absurd ⟨name, written.symm⟩ opens
  · rfl

theorem tagToken_of_opening {raw : List Char} (opens : ¬ ['/'] <+: raw.reverse)
    (goesOn : ¬ ['/'] <+: raw) : tagToken raw = .opening raw.reverse := by
  unfold tagToken
  split
  · rename_i name written
    exact absurd ⟨name, written.symm⟩ opens
  · split
    · rename_i rest _
      exact absurd ⟨rest, rfl⟩ goesOn
    · rfl

theorem restyled_tagToken (breaks : IsBreak ends) {raw : List Char} (clean : '\r' ∉ raw) :
    Token.Restyled ends (tagToken raw) (tagToken (withLineEnds ends.reverse raw)) := by
  have slash : ∀ c ∈ ['/'], c ≠ '\n' ∧ c ≠ '\r' := by simp
  have written (raw : List Char) :
      (withLineEnds ends.reverse raw).reverse = withLineEnds ends raw.reverse := by
    rw [reverse_withLineEnds, List.reverse_reverse]
  by_cases closing : ['/'] <+: raw.reverse
  · obtain ⟨name, same⟩ := closing
    have cleanName : '\r' ∉ name := fun member =>
      clean (List.mem_reverse.mp (same ▸ List.mem_append_right _ member))
    have restyledName : (withLineEnds ends.reverse raw).reverse = '/' :: withLineEnds ends name := by
      rw [written, ← same]
      exact withLineEnds_cons (by decide) _ _
    rw [tagToken_of_closing same.symm, tagToken_of_closing restyledName,
      restyled_closingName breaks]
    exact .closing (clean_closingName cleanName)
  have restyledOpens : ¬ ['/'] <+: (withLineEnds ends.reverse raw).reverse := by
    rwa [written, prefix_withLineEnds_iff breaks slash]
  by_cases selfClosing : ['/'] <+: raw
  · obtain ⟨content, rfl⟩ := selfClosing
    have cleanContent : '\r' ∉ content.reverse := fun member =>
      clean (List.mem_append_right _ (List.mem_reverse.mp member))
    rw [List.singleton_append] at closing
    rw [List.singleton_append, withLineEnds_cons (by decide)] at restyledOpens ⊢
    rw [tagToken_of_selfClosing closing, tagToken_of_selfClosing restyledOpens, written]
    exact .selfClosing cleanContent
  · rw [tagToken_of_opening closing selfClosing, tagToken_of_opening restyledOpens
      ((prefix_withLineEnds_iff breaks.reverse slash).not.mpr selfClosing), written]
    exact .opening (by simpa using clean)

theorem finishComment_of_enclosed {lexer : Lexer} {text : List Char}
    (held : lexer.raw.reverse = ['!', '-', '-'] ++ (text ++ ['-', '-'])) :
    lexer.finishComment = lexer.finish (.comment text) := by
  simp [finishComment, held]

theorem finishComment_of_unopened {lexer : Lexer}
    (unopened : ¬ ['!', '-', '-'] <+: lexer.raw.reverse) :
    lexer.finishComment = lexer.fail .openComment lexer.start := by
  unfold finishComment
  split
  · rename_i rest held
    exact absurd ⟨rest, held.symm⟩ unopened
  · rfl

theorem finishCdata_of_enclosed {lexer : Lexer} {text : List Char}
    (held : lexer.raw.reverse = ['!', '[', 'C', 'D', 'A', 'T', 'A', '['] ++ (text ++ [']', ']'])) :
    lexer.finishCdata = lexer.finish (.cdata text) := by
  simp [finishCdata, held]

theorem finishCdata_of_unopened {lexer : Lexer}
    (unopened : ¬ ['!', '[', 'C', 'D', 'A', 'T', 'A', '['] <+: lexer.raw.reverse) :
    lexer.finishCdata = lexer.fail .openCdata lexer.start := by
  unfold finishCdata
  split
  · rename_i rest held
    exact absurd ⟨rest, held.symm⟩ unopened
  · rfl

section
variable (breaks : IsBreak ends)
include breaks

/-- A comment long enough to end is so with any line ends: a shorter one has none. -/
theorem long_withLineEnds_iff {raw : List Char} (opened : ['-', '!'] <:+ raw)
    (closes : raw.take 2 = ['-', '-']) : 4 < (withLineEnds ends raw).length ↔ 4 < raw.length := by
  by_cases long : 4 < raw.length
  · exact iff_of_true (Nat.lt_of_lt_of_le long (length_le_withLineEnds breaks)) long
  have whole : '\n' ∉ raw := by
    obtain ⟨rest, rfl⟩ := opened
    match rest with
    | [] => simp at closes
    | [c] => simp_all
    | [c, d] => simp_all
    | _ :: _ :: _ :: _ => simp at long
  rw [withLineEnds_eq_self whole]

/-- A document type is known by its first eight characters, none of which ends a line. -/
theorem keyword_withLineEnds_iff (text : List Char) :
    (((withLineEnds ends text).take 8).map Char.toLower = "!doctype".toList ↔
      (text.take 8).map Char.toLower = "!doctype".toList) ∧
    ((text.take 8).map Char.toLower = "!doctype".toList →
      (withLineEnds ends text).drop 8 = withLineEnds ends (text.drop 8)) := by
  have plain {part : List Char} (same : part.map Char.toLower = "!doctype".toList) :
      part.length = 8 ∧ ∀ c ∈ part, c ≠ '\n' ∧ c ≠ '\r' := by
    refine ⟨by simpa using congrArg List.length same, fun c member => ⟨?_, ?_⟩⟩ <;>
    · rintro rfl
      have lower := List.mem_map_of_mem (f := Char.toLower) member
      rw [same] at lower
      exact absurd lower (by decide)
  refine ⟨⟨fun same => ?_, fun same => ?_⟩, fun same => ?_⟩
  · obtain ⟨size, each⟩ := plain same
    rwa [(take_withLineEnds_iff breaks each size).mp rfl]
  · obtain ⟨size, each⟩ := plain same
    rwa [(take_withLineEnds_iff breaks each size).mpr rfl]
  · obtain ⟨size, each⟩ := plain same
    have whole := List.take_append_drop 8 text
    have taken : withLineEnds ends (text.take 8) = text.take 8 :=
      withLineEnds_eq_self fun member => (each _ member).1 rfl
    calc (withLineEnds ends text).drop 8
      _ = (text.take 8 ++ withLineEnds ends (text.drop 8)).drop 8 := by
        rw [← taken, ← withLineEnds_append, whole]
      _ = withLineEnds ends (text.drop 8) := List.drop_left' size

namespace Restyled

variable (restyled : Restyled ends first second)
include restyled

theorem take_iff {marks : List Char} (plain : ∀ c ∈ marks, c ≠ '\n' ∧ c ≠ '\r') {size : Nat}
    (whole : marks.length = size) : second.raw.take size = marks ↔ first.raw.take size = marks := by
  rw [restyled.raw, take_withLineEnds_iff breaks.reverse plain whole]

theorem endsComment_iff (fitting : ['-', '!'] <:+ first.raw) :
    4 < second.raw.length ∧ second.raw.take 2 = ['-', '-'] ↔
      4 < first.raw.length ∧ first.raw.take 2 = ['-', '-'] := by
  have dashes : second.raw.take 2 = ['-', '-'] ↔ first.raw.take 2 = ['-', '-'] :=
    restyled.take_iff breaks (by simp) rfl
  rw [dashes, restyled.raw]
  exact and_congr_left fun closes => long_withLineEnds_iff breaks.reverse fitting closes

/-- Both end with what is between the opening and the closing, or neither begins as it should. -/
theorem finish_enclosed {finishing : Lexer → Lexer} {held : List Char → Token}
    {fault : LexicalFault} {opening closing : List Char}
    (enclosed : ∀ {lexer : Lexer} {text : List Char},
      lexer.raw.reverse = opening ++ (text ++ closing) → finishing lexer = lexer.finish (held text))
    (unopened : ∀ {lexer : Lexer}, ¬ opening <+: lexer.raw.reverse →
      finishing lexer = lexer.fail fault lexer.start)
    (restyledToken : ∀ {text : List Char}, '\r' ∉ text →
      Token.Restyled ends (held text) (held (withLineEnds ends text)))
    (plain : ∀ c ∈ opening ++ closing, c ≠ '\n' ∧ c ≠ '\r')
    (closes : closing <:+ first.raw.reverse)
    (room : opening <+: first.raw.reverse → opening.length + closing.length ≤ first.raw.length) :
    Restyled ends (finishing first) (finishing second) := by
  have plainOpening := fun c member => plain c (List.mem_append_left closing member)
  by_cases opened : opening <+: first.raw.reverse
  · obtain ⟨rest, begins⟩ := opened
    have ended : closing <:+ rest := by
      refine List.suffix_of_suffix_length_le (begins ▸ closes) (List.suffix_append opening rest) ?_
      have size := congrArg List.length begins
      have fits := room ⟨rest, begins⟩
      simp only [List.length_append, List.length_reverse] at size
      omega
    obtain ⟨text, rfl⟩ := ended
    have clean : '\r' ∉ text := fun member =>
      restyled.clean_reverse (by rw [← begins]; simp [member])
    have restyledRaw : second.raw.reverse = opening ++ (withLineEnds ends text ++ closing) := by
      rw [restyled.reverse_raw, ← begins, withLineEnds_append, withLineEnds_append,
        withLineEnds_eq_self fun member => (plainOpening _ member).1 rfl,
        withLineEnds_eq_self fun member => (plain _ (List.mem_append_right opening member)).1 rfl]
    rw [enclosed begins.symm, enclosed restyledRaw]
    exact restyled.finish (restyledToken clean)
  · have restyledUnopened : ¬ opening <+: second.raw.reverse := by
      rwa [restyled.reverse_raw, prefix_withLineEnds_iff breaks plainOpening]
    rw [unopened opened, unopened restyledUnopened]
    exact restyled.fail fault _ _

theorem finishComment (long : 4 < first.raw.length) (closes : first.raw.take 2 = ['-', '-']) :
    Restyled ends first.finishComment second.finishComment := by
  refine restyled.finish_enclosed breaks finishComment_of_enclosed finishComment_of_unopened
    .comment (by simp) ?_ fun _ => long
  exact List.reverse_suffix.mpr (List.prefix_iff_eq_take.mpr closes.symm)

theorem finishCdata (closes : first.raw.take 2 = [']', ']']) :
    Restyled ends first.finishCdata second.finishCdata := by
  have ended : [']', ']'] <:+ first.raw.reverse :=
    List.reverse_suffix.mpr (List.prefix_iff_eq_take.mpr closes.symm)
  refine restyled.finish_enclosed breaks finishCdata_of_enclosed finishCdata_of_unopened
    .cdata (by simp) ended ?_
  rintro ⟨rest, begins⟩
  have size := congrArg List.length begins
  rw [← begins] at ended
  match rest with
  | [] => exact absurd ended (by decide)
  | [c] => simp [List.suffix_cons_iff] at ended
  | _ :: _ :: _ => simp at size ⊢; omega

theorem finishDoctype : Restyled ends first.finishDoctype second.finishDoctype := by
  obtain ⟨keyword, dropped⟩ := keyword_withLineEnds_iff breaks first.raw.reverse
  unfold Lexer.finishDoctype
  simp only [restyled.reverse_raw, keyword]
  split
  · rename_i named
    rw [dropped named, all_withLineEnds breaks (by decide)]
    split
    · exact restyled.fail _ _ _
    · exact restyled.finish .other
  · exact restyled.fail _ _ _

theorem finishInstruction (closes : first.raw.take 1 = ['?']) :
    Restyled ends first.finishInstruction second.finishInstruction := by
  have long : 1 < second.raw.length ↔ 1 < first.raw.length := by
    obtain ⟨rest, same⟩ : ['?'] <+: first.raw := List.prefix_iff_eq_take.mpr closes.symm
    rw [restyled.raw, ← same, List.singleton_append, withLineEnds_cons (by decide),
      List.length_cons, List.length_cons, Nat.lt_add_left_iff_pos, Nat.lt_add_left_iff_pos,
      List.length_pos_iff, List.length_pos_iff, Ne, Ne, withLineEnds_eq_nil_iff breaks.reverse]
  unfold Lexer.finishInstruction
  simp only [gt_iff_lt, long]
  split
  · exact restyled.finish .other
  · exact restyled.fail _ _ _

theorem stepTag (notFeed : c ≠ '\n') (notReturn : c ≠ '\r') {quote : Option Char}
    (quoted : ∀ opened, quote = some opened → opened = '"' ∨ opened = '\'') :
    Restyled ends (first.stepTag quote c) (second.stepTag quote c) := by
  unfold Lexer.stepTag
  split
  · rename_i opened
    split
    · exact restyled.keep notFeed notReturn trivial
    · exact restyled.keep notFeed notReturn (quoted opened rfl)
  split
  · refine restyled.finish ?_
    rw [restyled.raw]
    exact restyled_tagToken breaks restyled.clean
  split
  · rename_i opens
    have quotes : c = '"' ∨ c = '\'' := by simpa using opens
    exact restyled.keep notFeed notReturn quotes
  · exact restyled.keep notFeed notReturn trivial

theorem advance (notFeed : c ≠ '\n') (notReturn : c ≠ '\r') :
    Restyled ends (first.advance c) (second.advance c) := by
  have fitting := restyled.fitting
  have keep {mode : Mode} (fits : Fitting mode (c :: first.raw)) :=
    restyled.keep notFeed notReturn fits
  unfold Lexer.advance
  rw [restyled.mode]
  cases mode : first.mode with
  | text =>
    simp only
    split
    · exact restyled.beginMarkup breaks
    · exact keep trivial
  | markup =>
    rw [mode] at fitting
    simp only
    split
    · rename_i bang
      exact keep (by rw [bang, show first.raw = [] from fitting]; rfl)
    split
    · exact keep trivial
    · exact restyled.stepTag breaks notFeed notReturn nofun
  | tag quote =>
    refine restyled.stepTag breaks notFeed notReturn ?_
    rintro opened rfl
    rwa [mode] at fitting
  | declaration =>
    rw [mode] at fitting
    simp only
    split
    · rename_i dash
      exact keep (by rw [dash, show first.raw = ['!'] from fitting]; exact List.suffix_rfl)
    split
    · exact keep trivial
    split
    · exact keep trivial
    · exact restyled.fail _ _ _
  | comment =>
    rw [mode] at fitting
    simp only [Bool.and_eq_true, decide_eq_true_eq, beq_iff_eq, gt_iff_lt, and_assoc,
      restyled.endsComment_iff breaks fitting]
    split
    · rename_i closes
      exact restyled.finishComment breaks closes.2.1 closes.2.2
    · exact keep (fitting.trans (List.suffix_cons c first.raw))
  | cdata =>
    have brackets : second.raw.take 2 = [']', ']'] ↔ first.raw.take 2 = [']', ']'] :=
      restyled.take_iff breaks (by simp) rfl
    simp only [Bool.and_eq_true, decide_eq_true_eq, beq_iff_eq, brackets]
    split
    · rename_i closes
      exact restyled.finishCdata breaks closes.2
    · exact keep trivial
  | doctype depth =>
    simp only
    split
    · split
      · exact restyled.finishDoctype breaks
      · exact keep trivial
    split
    · exact keep trivial
    · exact keep trivial
  | instruction =>
    have mark : second.raw.take 1 = ['?'] ↔ first.raw.take 1 = ['?'] :=
      restyled.take_iff breaks (by simp) rfl
    simp only [Bool.and_eq_true, decide_eq_true_eq, beq_iff_eq, mark]
    split
    · rename_i closes
      exact restyled.finishInstruction breaks closes.2
    · exact keep trivial

end Restyled
end

variable {lexer : Lexer} {raw text : List Char}

theorem Fitting.afterBreak (fitting : Fitting mode raw) (inside : mode ≠ .declaration) :
    Fitting mode.afterBreak ('\n' :: raw) := by
  cases mode with
  | tag quote =>
    cases quote with
    | none => trivial
    | some _ => exact fitting
  | declaration => exact absurd rfl inside
  | comment => exact fitting.trans (List.suffix_cons '\n' raw)
  | _ => trivial

/-- A line end goes on with what is at hand, except just after `<!`. -/
theorem advance_break (isBreak : c = '\n' ∨ c = '\r') (fitting : Fitting lexer.mode raw)
    (inside : lexer.mode ≠ .declaration) :
    lexer.advance c = lexer.keep c lexer.mode.afterBreak := by
  have apart : ∀ d ∈ ['<', '>', '!', '?', '"', '\''], c ≠ d := by
    obtain rfl | rfl := isBreak <;> simp
  simp only [List.forall_mem_cons] at apart
  obtain ⟨opening, closing, bang, mark, double, single, -⟩ := apart
  cases mode : lexer.mode with
  | tag quote =>
    cases quote with
    | none => simp [Lexer.advance, Lexer.stepTag, mode, Mode.afterBreak, closing, double, single]
    | some quote =>
      rw [mode] at fitting
      have goesOn : c ≠ quote := by
        obtain rfl | rfl := fitting
        · exact double
        · exact single
      simp [Lexer.advance, Lexer.stepTag, mode, Mode.afterBreak, goesOn]
  | declaration => exact absurd mode inside
  | _ => simp_all [Lexer.advance, Lexer.stepTag, Mode.afterBreak]

theorem advance_break_declaration (isBreak : c = '\n' ∨ c = '\r')
    (mode : lexer.mode = .declaration) :
    lexer.advance c = lexer.fail .unknownMarkup lexer.start := by
  obtain rfl | rfl := isBreak <;> simp [Lexer.advance, mode]

theorem foldl_breaks (each : ∀ c ∈ text, c = '\n' ∨ c = '\r') (faultless : lexer.fault = none)
    (fitting : Fitting lexer.mode raw) (inside : lexer.mode ≠ .declaration)
    (settled : lexer.mode.afterBreak = lexer.mode) :
    ∃ offset, text.foldl step lexer = { lexer with raw := text.reverse ++ lexer.raw, offset } := by
  induction text generalizing lexer with
  | nil => exact ⟨lexer.offset, rfl⟩
  | cons c rest ih =>
    have stepped : lexer.step c = lexer.keep c lexer.mode := by
      rw [step, faultless]
      exact (advance_break (each c List.mem_cons_self) fitting inside).trans (by rw [settled])
    rw [List.foldl_cons, stepped]
    obtain ⟨offset, ran⟩ := @ih (lexer.keep c lexer.mode)
      (fun d member => each d (List.mem_cons_of_mem c member)) faultless fitting inside settled
    exact ⟨offset, by rw [ran]; simp [Lexer.keep]⟩

theorem foldl_of_fault (faulty : lexer.fault ≠ none) : text.foldl step lexer = lexer := by
  induction text with
  | nil => rfl
  | cons c rest ih =>
    have stays : lexer.step c = lexer := by
      obtain ⟨fault, same⟩ := Option.ne_none_iff_exists'.mp faulty
      simp [step, same]
    rw [List.foldl_cons, stays, ih]

namespace Restyled

variable (restyled : Restyled ends first second)
include restyled

theorem exists_fault {found : LexicalFault × Nat} (fault : first.fault = some found) :
    ∃ other, second.fault = some other := by
  have same := restyled.fault
  rw [fault, Option.map_some] at same
  obtain ⟨other, held, -⟩ := Option.map_eq_some_iff.mp same
  exact ⟨other, held⟩

theorem fault_eq_none_iff : second.fault = none ↔ first.fault = none := by
  rw [← Option.map_eq_none_iff, restyled.fault, Option.map_eq_none_iff]

/-- Where one reads a line feed, the other reads its line end. -/
theorem lineEnd (breaks : IsBreak ends) :
    Restyled ends (first.step '\n') (ends.foldl step second) := by
  by_cases faultless : first.fault = none
  · have faultlessToo := restyled.fault_eq_none_iff.mpr faultless
    obtain ⟨c, more, rfl⟩ := List.exists_cons_of_ne_nil breaks.nonempty
    have isBreak := breaks.each c List.mem_cons_self
    have stepped : first.step '\n' = first.advance '\n' := by simp [step, faultless]
    have steppedToo : second.step c = second.advance c := by simp [step, faultlessToo]
    rw [List.foldl_cons, stepped, steppedToo]
    by_cases mode : first.mode = .declaration
    · rw [advance_break_declaration (.inl rfl) mode,
        advance_break_declaration isBreak (restyled.mode.trans mode),
        foldl_of_fault (Option.some_ne_none _)]
      exact restyled.fail _ _ _
    · -- the first character may end `<` or a name; the others only go on with what is at hand
      have fitting := restyled.mode ▸ restyled.fitting
      have modeToo := restyled.mode.trans_ne mode
      have fits := fitting.afterBreak modeToo
      have kept : (second.keep c second.mode.afterBreak).fault = none := faultlessToo
      obtain ⟨offset, ran⟩ := foldl_breaks
        (fun d member => breaks.each d (List.mem_cons_of_mem c member)) kept fits
        (Mode.afterBreak_ne_declaration modeToo) second.mode.afterBreak_afterBreak
      rw [advance_break (.inl rfl) restyled.fitting mode, advance_break isBreak fitting modeToo, ran]
      refine ⟨congrArg Mode.afterBreak restyled.mode, ?_, ?_, restyled.fitting.afterBreak mode,
        restyled.tokens, restyled.fault⟩
      · simp [Lexer.keep, restyled.raw]
      · simp [Lexer.keep, restyled.clean]
  · rw [foldl_of_fault (restyled.fault_eq_none_iff.not.mpr faultless)]
    have stays : ['\n'].foldl step first = first := foldl_of_fault faultless
    rw [List.foldl_cons, List.foldl_nil] at stays
    rwa [stays]

theorem step (breaks : IsBreak ends) (notFeed : c ≠ '\n') (notReturn : c ≠ '\r') :
    Restyled ends (first.step c) (second.step c) := by
  unfold Lexer.step
  cases fault : first.fault with
  | none =>
    rw [restyled.fault_eq_none_iff.mpr fault]
    exact restyled.advance breaks notFeed notReturn
  | some found =>
    obtain ⟨foundToo, faultToo⟩ := restyled.exists_fault fault
    rw [faultToo]
    exact restyled

theorem complete (breaks : IsBreak ends) : Restyled ends first.complete second.complete := by
  have empty := restyled.isEmpty_raw breaks
  unfold Lexer.complete
  cases fault : first.fault with
  | some found =>
    obtain ⟨foundToo, faultToo⟩ := restyled.exists_fault fault
    rw [faultToo]
    exact restyled
  | none =>
    rw [restyled.fault_eq_none_iff.mpr fault, restyled.mode]
    cases mode : first.mode with
    | text =>
      simp only [empty]
      split
      · exact restyled
      · exact ⟨rfl, rfl, by simp, trivial, .cons restyled.textToken restyled.tokens, rfl⟩
    | _ => exact restyled.fail _ _ _

end Restyled

end Lexer

/-- A text is cut into the same tokens whatever its line ends are, up to the same fault. -/
theorem restyled_ofText {ends text : List Char} (breaks : IsBreak ends) (clean : '\r' ∉ text) :
    List.Forall₂ (fun lexeme other => Token.Restyled ends lexeme.token other.token)
      (Lexemes.ofText text).lexemes (Lexemes.ofText (withLineEnds ends text)).lexemes ∧
    (Lexemes.ofText (withLineEnds ends text)).fault.map (·.1) =
      (Lexemes.ofText text).fault.map (·.1) := by
  have read := foldl_withLineEnds clean (Lexer.restyled_initial ends)
    (fun held => held.lineEnd breaks) fun held => held.step breaks
  have restyled := read.complete breaks
  exact ⟨List.rel_reverse restyled.tokens, restyled.fault⟩

end KeyholeMarkup.Xml

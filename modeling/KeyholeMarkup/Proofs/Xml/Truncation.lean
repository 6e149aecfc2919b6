import KeyholeMarkup.Proofs.Xml.Positions
import KeyholeMarkup.Proofs.Xml.Reading
import KeyholeMarkup.Proofs.Xml.Stream
import Mathlib.Data.List.Induction

/-! Texts that are cut off. What the lexer has finished at a cut it has finished in the whole text,
too, so that the root cannot be closed before the character that closes it has been read. -/
namespace KeyholeMarkup.Xml
open KeyholeMarkup.Source KeyholeMarkup.Text

namespace Lexer

variable {lexer : Lexer} {c : Char}

/-- Only a closing angle bracket can finish a token of markup. -/
theorem advance_of_ne (lexer : Lexer) (other : c ≠ '>') :
    (∃ mode, lexer.advance c = lexer.keep c mode) ∨
      (c = '<' ∧ lexer.advance c = lexer.beginMarkup) ∨
      ∃ fault offset, lexer.advance c = lexer.fail fault offset := by
  have tag (quote : Option Char) : ∃ mode, lexer.stepTag quote c = lexer.keep c mode := by
    unfold stepTag
    split
    · exact ⟨_, rfl⟩
    rw [if_neg other]
    split <;> exact ⟨_, rfl⟩
  unfold advance
  cases lexer.mode with
  | text =>
    simp only
    split
    · rename_i bracket
      exact .inr (.inl ⟨bracket, rfl⟩)
    · exact .inl ⟨_, rfl⟩
  | markup =>
    simp only
    split
    · exact .inl ⟨_, rfl⟩
    split
    · exact .inl ⟨_, rfl⟩
    · exact .inl (tag none)
  | tag quote => exact .inl (tag quote)
  | declaration =>
    simp only
    split
    · exact .inl ⟨_, rfl⟩
    split
    · exact .inl ⟨_, rfl⟩
    split
    · exact .inl ⟨_, rfl⟩
    · exact .inr (.inr ⟨_, _, rfl⟩)
  | comment => exact .inl ⟨.comment, by simp [other]⟩
  | cdata => exact .inl ⟨.cdata, by simp [other]⟩
  | doctype depth =>
    simp only [if_neg other]
    split <;> exact .inl ⟨_, rfl⟩
  | instruction => exact .inl ⟨.instruction, by simp [other]⟩

theorem offset_advance (faultless : (lexer.advance c).fault = none) :
    (lexer.advance c).offset = lexer.offset + c.utf8Size := by
  by_cases bracket : c = '>'
  · have size : c.utf8Size = 1 := by rw [bracket]; rfl
    generalize same : lexer.advance c = after at faultless
    have advanced : lexer.Advanced c after := same ▸ advanced_advance lexer c
    cases advanced with
    | keep _ => rfl
    | finish _ => simp [finish, size]
    | beginMarkup => simp [beginMarkup, size]
    | fail fault offset => simp [fail] at faultless
  · obtain ⟨mode, same⟩ | ⟨opening, same⟩ | ⟨fault, offset, same⟩ := advance_of_ne lexer bracket
    · rw [same]
      rfl
    · rw [same, opening]
      rfl
    · rw [same] at faultless
      simp [fail] at faultless

/-- A character finishes at most one token. Unless it is character data, the character is a closing
angle bracket, and with it the lexer is back in the text around. -/
theorem finished_step (lexer : Lexer) (c : Char) : (lexer.step c).finished = lexer.finished ∨
    ∃ lexeme, (lexer.step c).finished = lexeme :: lexer.finished ∧
      ((∃ raw, lexeme.token = .text raw) ∨
        c = '>' ∧ lexer.fault = none ∧ lexeme.stop = lexer.offset + 1 ∧
          lexer.step c = lexer.finish lexeme.token) := by
  have began : lexer.beginMarkup.finished = lexer.finished ∨ ∃ lexeme,
      lexer.beginMarkup.finished = lexeme :: lexer.finished ∧ ∃ raw, lexeme.token = .text raw := by
    unfold beginMarkup
    split
    · exact .inl rfl
    · exact .inr ⟨_, rfl, _, rfl⟩
  cases fault : lexer.fault with
  | some found => exact .inl (by simp [step, fault])
  | none =>
  have stepped : lexer.step c = lexer.advance c := by simp [step, fault]
  rw [stepped]
  by_cases bracket : c = '>'
  · generalize same : lexer.advance c = after
    have advanced : lexer.Advanced c after := same ▸ advanced_advance lexer c
    cases advanced with
    | keep _ => exact .inl rfl
    | finish _ => exact .inr ⟨_, rfl, .inr ⟨bracket, rfl, rfl, rfl⟩⟩
    | beginMarkup =>
      refine began.imp_right ?_
      rintro ⟨lexeme, held, text⟩
      exact ⟨lexeme, held, .inl text⟩
    | fail _ _ => exact .inl rfl
  · obtain ⟨mode, same⟩ | ⟨-, same⟩ | ⟨fault, offset, same⟩ := advance_of_ne lexer bracket
    · exact .inl (by rw [same]; rfl)
    · rw [same]
      refine began.imp_right ?_
      rintro ⟨lexeme, held, text⟩
      exact ⟨lexeme, held, .inl text⟩
    · exact .inl (by rw [same]; rfl)

/-- What is finished stays finished. -/
theorem finished_suffix (lexer : Lexer) (text : List Char) :
    lexer.finished <:+ (text.foldl step lexer).finished := by
  induction text generalizing lexer with
  | nil => exact List.suffix_rfl
  | cons c rest ih =>
    refine List.IsSuffix.trans ?_ (ih (lexer.step c))
    obtain same | ⟨lexeme, added, -⟩ := finished_step lexer c
    · exact same ▸ List.suffix_rfl
    · rw [added]
      exact List.suffix_cons lexeme lexer.finished

theorem fault_of_step (faultless : (lexer.step c).fault = none) : lexer.fault = none := by
  cases fault : lexer.fault with
  | none => rfl
  | some found => simp [step, fault] at faultless

theorem offset_foldl (text : List Char) (faultless : (text.foldl step initial).fault = none) :
    (text.foldl step initial).offset = byteLength text := by
  induction text using List.reverseRecOn with
  | nil => rfl
  | append_singleton before c ih =>
    rw [List.foldl_append, List.foldl_cons, List.foldl_nil] at faultless ⊢
    have sane := fault_of_step faultless
    have stepped : (before.foldl step initial).step c = (before.foldl step initial).advance c := by
      simp [step, sane]
    rw [stepped] at faultless ⊢
    rw [offset_advance faultless, ih sane]
    simp

/-- A part of a text after which a token of markup ends with the next character. -/
structure EndsBehind (part : List Char) (lexeme : Lexeme) (earlier : List Lexeme) : Prop where
  stop : lexeme.stop = byteLength part + 1
  before : (part.foldl step initial).finished = earlier
  finished : ((part ++ ['>']).foldl step initial).finished = lexeme :: earlier
  complete : ((part ++ ['>']).foldl step initial).complete = (part ++ ['>']).foldl step initial
  faultless : ((part ++ ['>']).foldl step initial).fault = none

theorem complete_finish (lexer : Lexer) (token : Token) :
    (lexer.finish token).complete = lexer.finish token := by
  unfold complete
  split <;> rfl

/-- Markup ends with a closing angle bracket of the text. What was finished before it the lexer has
finished on reaching it. -/
theorem exists_endsBehind {text : List Char} {later earlier : List Lexeme} {lexeme : Lexeme}
    (held : (text.foldl step initial).finished = later ++ lexeme :: earlier)
    (markup : ∀ raw, lexeme.token ≠ .text raw) :
    ∃ before after, text = before ++ '>' :: after ∧ EndsBehind before lexeme earlier := by
  induction text using List.reverseRecOn generalizing later with
  | nil => simp [initial] at held
  | append_singleton front c ih =>
    have stepped : (front ++ [c]).foldl step initial = (front.foldl step initial).step c := by simp
    have further {later : List Lexeme}
        (held : (front.foldl step initial).finished = later ++ lexeme :: earlier) :
        ∃ before after, front ++ [c] = before ++ '>' :: after ∧
          EndsBehind before lexeme earlier := by
      obtain ⟨before, after, split, ends⟩ := ih held
      exact ⟨before, after ++ [c], by simp [split], ends⟩
    rw [stepped] at held
    obtain same | ⟨added, grown, kind⟩ := finished_step (front.foldl step initial) c
    · exact further (same ▸ held)
    rw [grown] at held
    cases later with
    | cons last others => exact further (List.cons.inj held).2
    | nil =>
      obtain ⟨rfl, rfl⟩ := List.cons.inj held
      obtain ⟨raw, text⟩ | ⟨rfl, sane, stop, finished⟩ := kind
      · exact absurd text (markup raw)
      · rw [offset_foldl front sane] at stop
        refine ⟨front, [], rfl, stop, rfl, stepped ▸ grown, ?_, ?_⟩
        · rw [stepped, finished, complete_finish]
        · rw [stepped, finished]
          exact sane

/-- At the end of the text character data may be added. -/
theorem finished_complete (lexer : Lexer) : lexer.complete.finished = lexer.finished ∨
    ∃ lexeme raw, lexer.complete.finished = lexeme :: lexer.finished ∧
      lexeme.token = .text raw := by
  unfold complete
  split
  · exact .inl rfl
  split
  · split
    · exact .inl rfl
    · exact .inr ⟨_, _, rfl, rfl⟩
  all_goals exact .inl rfl

theorem finished_of_complete {later earlier : List Lexeme} {lexeme : Lexeme}
    (held : lexer.complete.finished = later ++ lexeme :: earlier)
    (markup : ∀ raw, lexeme.token ≠ .text raw) :
    ∃ later, lexer.finished = later ++ lexeme :: earlier := by
  obtain same | ⟨added, raw, grown, text⟩ := finished_complete lexer
  · exact ⟨later, same ▸ held⟩
  rw [grown] at held
  cases later with
  | nil =>
    obtain ⟨rfl, -⟩ := List.cons.inj held
    exact absurd text (markup raw)
  | cons last others => exact ⟨others, (List.cons.inj held).2⟩

end Lexer

namespace Reader

variable {reader after : Reader} {root : Element}

/-- A root that is closed stays as it is. -/
theorem Stepped.root_eq {lexeme : Lexeme} (stepped : reader.Stepped lexeme after)
    (staged : reader.Staged) (closed : reader.root = some root) : after.root = some root := by
  cases stepped with
  | opening _ => exact closed
  | selfClosing opened =>
    rw [opened.root_eq_none staged] at closed
    contradiction
  | closing inside =>
    rw [staged.root_eq_none inside] at closed
    contradiction
  | comment =>
    have outside := staged.path (by simp [closed])
    unfold attach
    simp [outside, closed]
  | characters _ told => exact told.retold.root.trans closed
  | other => exact closed

/-- The root is closed by a tag, and it ends with that tag. -/
theorem Stepped.closes {lexeme : Lexeme} (stepped : reader.Stepped lexeme after)
    (absent : reader.root = none) (closed : after.root = some root) :
    (∀ raw, lexeme.token ≠ .text raw) ∧ after.path = [] ∧
      ∃ start, root.tag.span = some (.between reader.file start lexeme.stop) := by
  cases stepped with
  | opening _ => simp [absent] at closed
  | selfClosing opened =>
    unfold attach at closed ⊢
    cases inside : reader.path with
    | nil =>
      simp only [inside, Option.some.injEq] at closed ⊢
      subst closed
      exact ⟨nofun, trivial, _, rfl⟩
    | cons parent outer => simp [inside, absent] at closed
  | @closing _ _ _ outer inside =>
    unfold attach at closed ⊢
    cases outer with
    | nil =>
      simp only [Option.some.injEq] at closed ⊢
      subst closed
      exact ⟨nofun, trivial, _, rfl⟩
    | cons parent others => simp [absent] at closed
  | comment =>
    unfold attach at closed
    cases inside : reader.path <;> simp [inside, absent] at closed
  | characters _ told =>
    rw [told.retold.root, absent] at closed
    contradiction
  | other => simp [absent] at closed

theorem run_split {first second : List Lexeme} (ran : reader.run (first ++ second) = (after, none)) :
    ∃ middle, reader.run first = (middle, none) ∧ middle.run second = (after, none) := by
  induction first generalizing reader with
  | nil => exact ⟨reader, rfl, ran⟩
  | cons lexeme others ih =>
    rw [List.cons_append, run] at ran
    rw [run]
    cases stepped : reader.step lexeme with
    | ok next =>
      rw [stepped] at ran
      exact ih ran
    | error error => simp [stepped] at ran

/-- What every step keeps holds after all steps. -/
theorem run_induction (holds : Reader → Prop)
    (keeps : ∀ {reader next : Reader} {lexeme : Lexeme}, reader.Staged →
      reader.Stepped lexeme next → holds reader → holds next)
    {lexemes : List Lexeme} (staged : reader.Staged) (ran : reader.run lexemes = (after, none))
    (first : holds reader) : after.Staged ∧ holds after := by
  induction lexemes generalizing reader with
  | nil =>
    obtain ⟨rfl, -⟩ := Prod.mk.inj ran
    exact ⟨staged, first⟩
  | cons lexeme others ih =>
    rw [run] at ran
    cases stepped : reader.step lexeme with
    | ok next =>
      rw [stepped] at ran
      have known := stepped_of_step stepped
      exact ih (known.staged staged) ran (keeps staged known first)
    | error error => simp [stepped] at ran

theorem root_run {lexemes : List Lexeme} (staged : reader.Staged)
    (ran : reader.run lexemes = (after, none)) (closed : reader.root = some root) :
    after.root = some root :=
  (run_induction (fun reader => reader.root = some root)
    (fun staged stepped closed => stepped.root_eq staged closed) staged ran closed).2

theorem file_run {lexemes : List Lexeme} (staged : reader.Staged)
    (ran : reader.run lexemes = (after, none)) : after.file = reader.file :=
  (run_induction (fun later => later.file = reader.file)
    (fun _ stepped same => stepped.file.trans same) staged ran rfl).2

/-- Among the tokens that are taken until the root is there, one closes it. -/
theorem exists_closing {lexemes : List Lexeme} (staged : reader.Staged)
    (absent : reader.root = none) (ran : reader.run lexemes = (after, none))
    (closed : after.root = some root) : ∃ earlier lexeme later before next,
      lexemes = earlier ++ lexeme :: later ∧ reader.run earlier = (before, none) ∧
      before.root = none ∧ before.step lexeme = .ok next ∧ next.root = some root := by
  induction lexemes generalizing reader with
  | nil =>
    obtain ⟨rfl, -⟩ := Prod.mk.inj ran
    rw [absent] at closed
    contradiction
  | cons lexeme others ih =>
    unfold run at ran
    cases stepped : reader.step lexeme with
    | error error => simp [stepped] at ran
    | ok next =>
    simp only [stepped] at ran
    have stagedNext := (stepped_of_step stepped).staged staged
    cases there : next.root with
    | some early =>
      have same : early = root := by simpa [closed] using (root_run stagedNext ran there).symm
      exact ⟨[], lexeme, others, reader, next, rfl, rfl, absent, stepped, same ▸ there⟩
    | none =>
      obtain ⟨earlier, last, later, before, final, rfl, ranEarlier, rest⟩ :=
        ih stagedNext there ran
      refine ⟨lexeme :: earlier, last, later, before, final, rfl, ?_, rest⟩
      unfold run
      simpa only [stepped] using ranEarlier

end Reader

theorem head?_of_prefix {text kept : List Char} (unmarked : text.head? ≠ some '\ufeff')
    (cut : kept <+: text) : kept.head? ≠ some '\ufeff' := by
  obtain ⟨rest, rfl⟩ := cut
  cases kept with
  | nil => simp
  | cons c others => exact unmarked

section
variable {file : Nat} {text : String} {document : Document}

/-- A text is read if its tokens are taken without an error, there is no fault behind them and the
root is closed. -/
theorem parse_eq_ok_iff : parse file text = .ok document ↔ ∃ after,
    (Reader.initial file).run (Lexemes.ofText (withoutMark text.toList)).lexemes = (after, none) ∧
      (Lexemes.ofText (withoutMark text.toList)).fault = none ∧ after.document = .ok document := by
  unfold parse read
  generalize Lexemes.ofText (withoutMark text.toList) = lexemes
  obtain ⟨lexemes, fault⟩ := lexemes
  cases ran : (Reader.initial file).run lexemes with
  | mk after error =>
  simp only [ran]
  cases error with
  | some error => simp
  | none => cases fault <;> simp

/-- A part of a text is not read if its tokens do not close the root. -/
theorem error_of_root_eq_none {kept : List Char} {before : Reader} {others : List Lexeme}
    (unmarked : kept.head? ≠ some '\ufeff')
    (ran : (Reader.initial file).run
      ((kept.foldl Lexer.step Lexer.initial).finished.reverse ++ others) = (before, none))
    (absent : before.root = none) : ∃ error, parse file (String.ofList kept) = .error error := by
  cases result : parse file (String.ofList kept) with
  | error error => exact ⟨error, rfl⟩
  | ok document =>
    exfalso
    obtain ⟨after, ranKept, -, ended⟩ := parse_eq_ok_iff.mp result
    obtain ⟨-, -, closed, -⟩ := Reader.held_of_document ended
    rw [String.toList_ofList, withoutMark_eq_self unmarked] at ranKept
    obtain ⟨middle, ranMiddle, ranOthers⟩ := Reader.run_split ran
    have staged := (Reader.run_induction (fun _ => True) (fun _ _ _ => trivial)
      (Reader.staged_initial file) ranMiddle trivial).1
    have open' : middle.root = none := by
      cases there : middle.root with
      | none => rfl
      | some early =>
        rw [Reader.root_run staged ranOthers there] at absent
        contradiction
    simp only [Lexemes.ofText] at ranKept
    obtain same | ⟨lexeme, raw, added, text⟩ :=
      Lexer.finished_complete (kept.foldl Lexer.step Lexer.initial)
    · rw [same, ranMiddle] at ranKept
      obtain ⟨rfl, -⟩ := Prod.mk.inj ranKept
      rw [open'] at closed
      contradiction
    · -- The character data at the end does not close the root either.
      rw [added, List.reverse_cons] at ranKept
      obtain ⟨reached, ranReached, ranText⟩ := Reader.run_split ranKept
      rw [ranMiddle] at ranReached
      obtain ⟨rfl, -⟩ := Prod.mk.inj ranReached
      obtain ⟨earlier, last, later, _, _, split, -, _, stepped, there⟩ :=
        Reader.exists_closing staged open' ranText closed
      obtain ⟨rfl, rfl, rfl⟩ : earlier = [] ∧ last = lexeme ∧ later = [] := by
        cases earlier <;> simp_all
      obtain ⟨markup, -⟩ := (Reader.stepped_of_step stepped).closes ‹_› there
      exact markup raw text

/-- The root element of a document ends with a closing angle bracket of its text. No part of the text
that ends before this character is read as a document, and up to it the text is read with the same
root. -/
theorem exists_root_end (parsed : parse file text = .ok document)
    (unmarked : text.toList.head? ≠ some '\ufeff') :
    ∃ before after start, text.toList = before ++ '>' :: after ∧
      document.root.tag.span = some (.between file start (byteLength before + 1)) ∧
      (∀ kept, kept <+: before → ∃ error, parse file (String.ofList kept) = .error error) ∧
      ∃ whole, parse file (String.ofList (before ++ ['>'])) = .ok whole ∧
        whole.root = document.root := by
  obtain ⟨last, ran, -, ended⟩ := parse_eq_ok_iff.mp parsed
  obtain ⟨-, -, closed, -⟩ := Reader.held_of_document ended
  obtain ⟨earlier, lexeme, later, open', next, split, ranEarlier, absent, stepped, there⟩ :=
    Reader.exists_closing (Reader.staged_initial file) rfl ran closed
  have known := Reader.stepped_of_step stepped
  obtain ⟨markup, outside, start, span⟩ := known.closes absent there
  rw [withoutMark_eq_self unmarked] at split
  have reversed := congrArg List.reverse split
  rw [Lexemes.ofText, List.reverse_reverse, List.reverse_append, List.reverse_cons,
    List.append_assoc, List.singleton_append] at reversed
  obtain ⟨_, finished⟩ := Lexer.finished_of_complete reversed markup
  obtain ⟨before, after, whole, ends⟩ := Lexer.exists_endsBehind finished markup
  have unmarkedPart {kept : List Char} (cut : kept <+: before ++ ['>']) :
      kept.head? ≠ some '\ufeff' :=
    head?_of_prefix unmarked (whole ▸ cut.trans ⟨after, by simp⟩)
  refine ⟨before, after, start, whole, ?_, fun kept cut => ?_, ?_⟩
  · rw [span, ends.stop, Reader.file_run (Reader.staged_initial file) ranEarlier]
    rfl
  · obtain ⟨others, rest⟩ : (kept.foldl Lexer.step Lexer.initial).finished.reverse <+: earlier := by
      obtain ⟨cutOff, rfl⟩ := cut
      have kept := Lexer.finished_suffix (kept.foldl Lexer.step Lexer.initial) cutOff
      rw [← List.foldl_append, ends.before] at kept
      rwa [← List.reverse_prefix, List.reverse_reverse] at kept
    exact error_of_root_eq_none (unmarkedPart (cut.trans ⟨['>'], rfl⟩)) (rest ▸ ranEarlier) absent
  · have ranNext : open'.run [lexeme] = (next, none) := by
      rw [Reader.run, stepped]
      rfl
    refine ⟨⟨next.leading.reverse, document.root, next.trailing.reverse⟩,
      parse_eq_ok_iff.mpr ⟨next, ?_, ?_, ?_⟩, rfl⟩
    · rw [String.toList_ofList, withoutMark_eq_self (unmarkedPart List.prefix_rfl), Lexemes.ofText,
        ends.complete, ends.finished, List.reverse_cons, List.reverse_reverse]
      exact (Reader.run_append [lexeme] ranEarlier).trans ranNext
    · rw [String.toList_ofList, withoutMark_eq_self (unmarkedPart List.prefix_rfl), Lexemes.ofText,
        ends.complete]
      exact ends.faultless
    · unfold Reader.document
      rw [outside, there]

end

theorem exists_root_end_quoted :
    ∃ document, parse 0 "<a b='>'>é<!--c--></a>\n" = .ok document ∧
      ∃ before after start, "<a b='>'>é<!--c--></a>\n".toList = before ++ '>' :: after ∧
        document.root.tag.span = some (.between 0 start (byteLength before + 1)) ∧
        (∀ kept, kept <+: before → ∃ error, parse 0 (String.ofList kept) = .error error) ∧
        ∃ whole, parse 0 (String.ofList (before ++ ['>'])) = .ok whole ∧
          whole.root = document.root := by
  have parsed : parse 0 "<a b='>'>é<!--c--></a>\n" =
      .ok ⟨[], ⟨⟨⟨none, "a"⟩, none, [], [⟨⟨none, "b"⟩, none, ">"⟩], some "é", some ⟨0, 0, 23⟩⟩,
        .comment ⟨"c", some ⟨0, 11, 19⟩⟩ .empty⟩, []⟩ := by
    rfl
  exact ⟨_, parsed, exists_root_end parsed (by decide)⟩

end KeyholeMarkup.Xml

import KeyholeMarkup.Proofs.Xml.Lexing
import KeyholeMarkup.Text.Blank
import KeyholeMarkup.Xml.Writer

/-! The blanks between markup. Whatever the layout, written markup is read as its tokens, with
blank character data at most where no text stands beside it. -/
namespace KeyholeMarkup.Xml
open KeyholeMarkup.Text Lexer

/-- Whether text comes last, after `before` says so for what stands before the markup. -/
def endsInText (before : Bool) : List Markup → Bool
  | [] => before
  | markup :: rest => endsInText markup.isText rest

/-- No text follows another one, so that each is read apart. -/
def TextsApart (before : Bool) : List Markup → Prop
  | [] => True
  | markup :: rest =>
    (before = true → ∀ written, markup ≠ .text written) ∧ TextsApart markup.isText rest

/-- Markup written with blanks before some of it, after text or not. -/
inductive Laid : Bool → List Markup → List Char → Prop
  | done (before) : Laid before [] []
  | bare {before markup rest text} : Laid markup.isText rest text →
    Laid before (markup :: rest) (markup.render ++ text)
  | led {lead markup rest text} : allBlank lead → markup.isText = false → Laid false rest text →
    Laid false (markup :: rest) (lead ++ markup.render ++ text)

/-- Tokens of markup, with blank text before some of them. -/
inductive Spaced : Bool → List Markup → List Token → Prop
  | done (before) : Spaced before [] []
  | bare {before markup rest tokens} : Spaced markup.isText rest tokens →
    Spaced before (markup :: rest) (markup.token :: tokens)
  | led {lead markup rest tokens} : allBlank lead → markup.isText = false →
    Spaced false rest tokens → Spaced false (markup :: rest) (.text lead :: markup.token :: tokens)

@[simp] theorem endsInText_append (before : Bool) (first second : List Markup) :
    endsInText before (first ++ second) = endsInText (endsInText before first) second := by
  induction first generalizing before with
  | nil => rfl
  | cons markup rest ih => exact ih markup.isText

@[simp] theorem textsApart_append (before : Bool) (first second : List Markup) :
    TextsApart before (first ++ second) ↔
      TextsApart before first ∧ TextsApart (endsInText before first) second := by
  induction first generalizing before with
  | nil => simp [TextsApart, endsInText]
  | cons markup rest ih => simp [TextsApart, endsInText, ih, and_assoc]

theorem Spaced.split {before : Bool} {first second : List Markup} {tokens : List Token}
    (spaced : Spaced before (first ++ second) tokens) :
    ∃ left right, tokens = left ++ right ∧ Spaced before first left ∧
      Spaced (endsInText before first) second right := by
  induction first generalizing before tokens with
  | nil => exact ⟨[], tokens, rfl, .done before, spaced⟩
  | cons markup rest ih =>
    cases spaced with
    | bare others =>
      obtain ⟨left, right, rfl, leftSpaced, rightSpaced⟩ := ih others
      exact ⟨_ :: left, right, rfl, .bare leftSpaced, rightSpaced⟩
    | led blank kind others =>
      obtain ⟨left, right, rfl, leftSpaced, rightSpaced⟩ := ih others
      refine ⟨_ :: _ :: left, right, rfl, .led blank kind leftSpaced, ?_⟩
      rw [endsInText, kind]
      exact rightSpaced

theorem allBlank_lead (layout : Layout) : allBlank layout.lead := by
  unfold Layout.lead
  split
  · have feed : isBlank '\n' = true := by decide
    have space : isBlank ' ' = true := by decide
    simp [allBlank, feed, space]
  · rfl

theorem laid_placeAll (size : Nat) (markups : List Markup) :
    ∀ (before : Bool) (layout : Layout), (layout.breakNext = true → before = false) →
      Laid before markups (Layout.placeAll size layout markups) := by
  induction markups with
  | nil => exact fun before _ _ => .done before
  | cons markup rest ih =>
    intro before layout apart
    -- Text is written without a lead and lets none follow; all other markup may have one.
    have bare (column : Nat) (kind : markup.isText = true) :
        Laid before (markup :: rest)
          (markup.render ++ Layout.placeAll size ⟨column, false⟩ rest) :=
      .bare (ih _ _ (by simp))
    have led (column : Nat) (lead : List Char) (blank : allBlank lead)
        (needed : lead ≠ [] → before = false) (kind : markup.isText = false) :
        Laid before (markup :: rest)
          (lead ++ markup.render ++ Layout.placeAll size ⟨column, true⟩ rest) := by
      by_cases empty : lead = []
      · subst empty
        exact .bare (ih _ _ fun _ => kind)
      · rw [needed empty]
        exact .led blank kind (ih _ _ fun _ => rfl)
    have needed (column : Nat) : ({ layout with column } : Layout).lead ≠ [] → before = false := by
      intro kept
      refine apart (Decidable.byContradiction fun unbroken => kept ?_)
      simp [Layout.lead, unbroken]
    cases markup with
    | text written => exact bare _ rfl
    | cdata written => exact bare _ rfl
    | opening name attributes =>
      exact led _ _ (allBlank_lead _) (needed layout.column) rfl
    | closing name => exact led _ _ (allBlank_lead _) (needed (layout.column - size)) rfl
    | selfClosing name attributes =>
      exact led _ _ (allBlank_lead _) (needed layout.column) rfl
    | comment written => exact led _ _ (allBlank_lead _) (needed layout.column) rfl
    | declaration => exact led _ _ (allBlank_lead _) (needed layout.column) rfl

theorem laid_flatMap (markups : List Markup) :
    ∀ before, Laid before markups (markups.flatMap Markup.render) := by
  induction markups with
  | nil => exact .done
  | cons markup rest ih => exact fun before => .bare (ih _)

def WriteOptions.head (options : WriteOptions) : List Markup :=
  if options.declaration then [.declaration] else []

theorem laid_writeMarkup (options : WriteOptions) {markup : Markup} (rest : List Markup)
    (kind : markup.isText = false) :
    ∃ text ending, writeMarkup options (markup :: rest) = text ++ ending ∧ allBlank ending ∧
      Laid false (options.head ++ markup :: rest) text := by
  have feed : allBlank ['\n'] = true := by decide
  unfold writeMarkup WriteOptions.head
  cases options.indent with
  | some size => exact ⟨_, _, rfl, feed, laid_placeAll size _ _ _ (by simp)⟩
  | none =>
    refine ⟨_, [], (List.append_nil _).symm, rfl, ?_⟩
    cases options.declaration with
    | false => exact laid_flatMap (markup :: rest) false
    | true =>
      have laid : Laid false (.declaration :: markup :: rest) (Markup.declaration.render ++
          (['\n'] ++ markup.render ++ rest.flatMap Markup.render)) :=
        .bare (.led feed kind (laid_flatMap rest false))
      simpa using laid

theorem not_mem_of_allBlank {text : List Char} (blank : allBlank text) : '<' ∉ text := by
  intro member
  have := List.all_eq_true.mp blank '<' member
  exact absurd this (by decide)

theorem render_eq_cons {markup : Markup} (kind : markup.isText = false) :
    ∃ rest, markup.render = '<' :: rest := by
  cases markup with
  | text written => exact absurd kind (by simp [Markup.isText])
  | cdata written => exact absurd kind (by simp [Markup.isText])
  | opening name attributes => exact ⟨_, rfl⟩
  | selfClosing name attributes => exact ⟨_, rfl⟩
  | closing name => exact ⟨_, rfl⟩
  | comment written => exact ⟨_, rfl⟩
  | declaration => exact ⟨_, rfl⟩

theorem laid_eq_cons {before : Bool} {markup : Markup} {rest : List Markup} {text : List Char}
    (laid : Laid before (markup :: rest) text) (kind : markup.isText = false) :
    ∃ c others, text = c :: others ∧ (c = '<' ∨ isBlank c) := by
  obtain ⟨written, rendered⟩ := render_eq_cons kind
  cases laid with
  | bare others => exact ⟨'<', _, by rw [rendered]; rfl, .inl rfl⟩
  | @led lead _ _ _ blank _ others =>
    cases lead with
    | nil => exact ⟨'<', _, by rw [rendered]; rfl, .inl rfl⟩
    | cons c tail => exact ⟨c, _, rfl, .inr (List.all_eq_true.mp blank c (by simp))⟩

theorem tokens_of_laid {before : Bool} {markups : List Markup} {text : List Char}
    (laid : Laid before markups text) (clean : ∀ markup ∈ markups, markup.Clean)
    (apart : TextsApart before markups) {lexer : Lexer} {done : List Token} {pending : List Char}
    (within : lexer.Within .text pending done) (settled : before = false → pending = []) :
    ∃ tokens after left, Spaced before markups tokens ∧
      (text.foldl step lexer).Within .text left after ∧
      (endsInText before markups = false → left = []) ∧
      after ++ textTokens left = done ++ textTokens pending ++ tokens := by
  induction laid generalizing lexer done pending with
  | done before => exact ⟨[], done, pending, .done before, within, settled, by simp⟩
  | @bare before markup rest text laid ih =>
    obtain ⟨first, apartRest⟩ := apart
    have cleanRest : ∀ other ∈ rest, other.Clean := fun other member => clean other (by simp [member])
    rw [List.foldl_append]
    by_cases isText : ∃ written, markup = .text written
    · obtain ⟨written, rfl⟩ := isText
      have fresh : pending = [] := settled (by cases before with
        | false => rfl
        | true => exact absurd rfl (first rfl written))
      subst fresh
      have kept := escape_ne_nil (clean (.text written) (by simp))
      have read := within.foldl_text (not_mem_escape written.toList (by simp))
      obtain ⟨tokens, after, left, spaced, afterWithin, ends, whole⟩ :=
        ih cleanRest apartRest read (by simp [Markup.isText])
      refine ⟨_ :: tokens, after, left, .bare spaced, afterWithin, ends, ?_⟩
      rw [whole]
      simp [textTokens, kept, Markup.token]
    · have other : ∀ written, markup ≠ .text written := fun written same => isText ⟨written, same⟩
      have read := within_render within (clean markup (by simp)) other
      obtain ⟨tokens, after, left, spaced, afterWithin, ends, whole⟩ :=
        ih cleanRest apartRest read fun _ => rfl
      refine ⟨_ :: tokens, after, left, .bare spaced, afterWithin, ends, ?_⟩
      rw [whole]
      simp [textTokens]
  | @led lead markup rest text blank kind laid ih =>
    obtain ⟨-, apartRest⟩ := apart
    have cleanRest : ∀ other ∈ rest, other.Clean := fun other member => clean other (by simp [member])
    have other : ∀ written, markup ≠ .text written := by
      rintro written rfl
      exact absurd kind (by simp [Markup.isText])
    obtain rfl := settled rfl
    have leadRead := within.foldl_text (not_mem_of_allBlank blank)
    have read := within_render leadRead (clean markup (by simp)) other
    rw [List.foldl_append, List.foldl_append]
    rw [kind] at apartRest
    obtain ⟨tokens, after, left, spaced, afterWithin, ends, whole⟩ :=
      ih cleanRest apartRest read fun _ => rfl
    by_cases empty : lead = []
    · refine ⟨markup.token :: tokens, after, left, .bare (kind ▸ spaced), afterWithin,
        by rw [endsInText, kind]; exact ends, ?_⟩
      rw [whole]
      simp [textTokens, empty]
    · refine ⟨_ :: _ :: tokens, after, left, .led blank kind spaced, afterWithin,
        by rw [endsInText, kind]; exact ends, ?_⟩
      rw [whole]
      simp [textTokens, empty]

theorem WriteOptions.head_append (options : WriteOptions) {markup : Markup} (rest : List Markup)
    (kind : markup.isText = false) :
    ∃ first others, options.head ++ markup :: rest = first :: others ∧ first.isText = false := by
  unfold WriteOptions.head
  split
  · exact ⟨_, _, rfl, rfl⟩
  · exact ⟨_, _, rfl, kind⟩

theorem writeMarkup_ne_mark (options : WriteOptions) {markup : Markup} {rest : List Markup}
    (kind : markup.isText = false) (others : List Char) :
    writeMarkup options (markup :: rest) ≠ '\ufeff' :: others := by
  intro same
  obtain ⟨text, ending, written, -, laid⟩ := laid_writeMarkup options rest kind
  obtain ⟨first, more, markups, firstKind⟩ := options.head_append rest kind
  rw [markups] at laid
  obtain ⟨c, tail, rfl, plain⟩ := laid_eq_cons laid firstKind
  rw [written, List.cons_append] at same
  obtain ⟨rfl, -⟩ := List.cons.inj same
  revert plain
  decide

/-- A written document is read without a fault as the tokens of its markup, between blanks. -/
theorem tokens_writeMarkup (options : WriteOptions) {markup : Markup} {rest : List Markup}
    (kind : markup.isText = false) (clean : ∀ other ∈ markup :: rest, other.Clean)
    (apart : TextsApart false (markup :: rest)) (ends : endsInText false (markup :: rest) = false) :
    ∃ tokens ending, Spaced false (options.head ++ markup :: rest) tokens ∧ allBlank ending ∧
      (Lexemes.ofText (writeMarkup options (markup :: rest))).lexemes.map (·.token) =
        tokens ++ textTokens ending ∧
      (Lexemes.ofText (writeMarkup options (markup :: rest))).fault = none := by
  obtain ⟨text, ending, written, blank, laid⟩ := laid_writeMarkup options rest kind
  have headClean : ∀ other ∈ options.head ++ markup :: rest, other.Clean := by
    intro other member
    obtain inHead | inRest := List.mem_append.mp member
    · unfold WriteOptions.head at inHead
      split at inHead
      · rw [List.mem_singleton.mp inHead]
        trivial
      · exact absurd inHead (by simp)
    · exact clean other inRest
  have headKind : endsInText false options.head = false := by
    unfold WriteOptions.head
    split <;> rfl
  have headApart : TextsApart false options.head := by
    unfold WriteOptions.head
    split <;> simp [TextsApart]
  obtain ⟨tokens, after, left, spaced, within, fresh, whole⟩ :=
    tokens_of_laid laid headClean (by simp [headApart, headKind, apart]) within_initial fun _ => rfl
  obtain rfl := fresh (by simp [headKind, ends])
  have complete := (within.foldl_text (not_mem_of_allBlank blank)).complete
  refine ⟨tokens, ending, spaced, blank, ?_, ?_⟩
  · rw [Lexemes.ofText, written, List.foldl_append, complete.1]
    simpa [textTokens] using congrArg (· ++ textTokens ending) whole
  · rw [Lexemes.ofText, written, List.foldl_append, complete.2]

end KeyholeMarkup.Xml

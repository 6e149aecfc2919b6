import KeyholeMarkup.Proofs.Xml.Reading

/-! Contents and documents put together again from the tokens of their markup. -/
namespace KeyholeMarkup.Xml
open KeyholeMarkup.Source KeyholeMarkup.Text

/-- Tokens before a piece of markup: none or, unless text has just ended, a blank one. -/
def IsLead (before : Bool) (lead : List Token) : Prop :=
  lead = [] ∨ before = false ∧ ∃ blank, allBlank blank ∧ lead = [.text blank]

theorem Spaced.lead {before : Bool} {markup : Markup} {rest : List Markup} {tokens : List Token}
    (spaced : Spaced before (markup :: rest) tokens) :
    ∃ lead others, IsLead before lead ∧ Spaced markup.isText rest others ∧
      tokens = lead ++ markup.token :: others := by
  cases spaced with
  | bare others => exact ⟨[], _, .inl rfl, others, rfl⟩
  | led blank kind others =>
    refine ⟨_, _, .inr ⟨rfl, _, blank, rfl⟩, ?_, rfl⟩
    rw [kind]
    exact others

theorem Spaced.tokens_eq {before : Bool} {markups : List Markup} {tokens : List Token}
    (spaced : Spaced before markups tokens) (texts : ∀ markup ∈ markups, markup.isText = true) :
    tokens = markups.map Markup.token := by
  induction spaced with
  | done before => rfl
  | bare others ih => rw [List.map_cons, ih fun other member => texts other (by simp [member])]
  | led blank kind others ih => exact absurd kind (by simp [texts])

theorem Content.eq_empty_of_isEmpty {content : Content} (empty : content.isEmpty = true) :
    content = .empty := by
  cases content with
  | empty => rfl
  | comment entry rest => exact absurd empty (by simp [isEmpty])
  | element tag inner rest => exact absurd empty (by simp [isEmpty])

theorem Content.unplaced_ofNodes_eq_empty {nodes : List Node} :
    (Content.ofNodes nodes.reverse).unplaced = .empty ↔ nodes = [] := by
  constructor
  · intro same
    have none : nodes.reverse = [] := by
      cases reversed : nodes.reverse with
      | nil => rfl
      | cons node others =>
        rw [reversed] at same
        cases node <;> simp [Content.ofNodes, Content.cons, Content.unplaced] at same
    simpa using none
  · rintro rfl
    rfl

theorem endsInText_of_isText {markups : List Markup} (some : markups ≠ [])
    (texts : ∀ markup ∈ markups, markup.isText = true) (before : Bool) :
    endsInText before markups = true := by
  obtain ⟨earlier, last, rfl⟩ := (List.eq_nil_or_concat markups).resolve_left some
  rw [List.concat_eq_append, endsInText_append, endsInText, endsInText]
  exact texts last (by simp)

theorem text_eq_none {tag : Tag} {inner : Content} {cdata : List Name} (fits : tag.TextKept inner)
    (ends : endsInText false (tag.texts cdata) = false) : tag.text = none := by
  cases given : tag.text with
  | none => rfl
  | some text =>
    have texts : tag.texts cdata = textMarkup cdata tag text := by
      simp [Tag.texts, given, Option.filter, (fits text given).1]
    have some : tag.texts cdata ≠ [] := by
      rw [texts, textMarkup]
      split
      · simp [cdataSections_ne_nil]
      · simp
    rw [endsInText_of_isText some fun _ member => isText_of_mem_texts member] at ends
    contradiction

namespace Reader

variable {naming within after : Naming} {tag settledTag : Tag} {inner content settled : Content}
  {reader : Reader} {element : OpenElement} {outer : List OpenElement} {text : Option String}
  {cdata : List Name} {tokens : List Token}

/-- Markup inside an element is read as a content: the element holds it as children, and no text
of its own is lost. -/
def ReadsAs (naming : Naming) (markups : List Markup) (settled : Content) : Prop :=
  ∀ {before : Bool} {tokens : List Token} {reader : Reader} {element : OpenElement}
    {outer : List OpenElement} {text : Option String},
    Spaced before markups tokens → reader.path = element :: outer →
    element.scope = naming.scope → Pads text element.text →
    (before = false → element.children = [] → text = none) →
    reader.Yields tokens fun result => ∃ pieces nodes,
      result = { reader with path :=
        { element with text := pieces, children := nodes ++ element.children } :: outer } ∧
      Pads text pieces ∧ (nodes = [] → pieces = element.text) ∧
      (Content.ofNodes nodes.reverse).unplaced = settled

theorem yields_lead {before : Bool} {lead : List Token} (isLead : IsLead before lead)
    (path : reader.path = element :: outer) (pads : Pads text element.text)
    (fresh : before = false → element.children = [] → text = none) :
    reader.Yields lead fun result => ∃ pieces, Pads text pieces ∧
      (lead = [] → pieces = element.text) ∧ result = reader.holding element outer pieces := by
  obtain rfl | ⟨rfl, blank, isBlank, rfl⟩ := isLead
  · exact yields_nil ⟨element.text, pads, fun _ => rfl, (holding_text path).symm⟩
  · refine (yields_blank path pads (fresh rfl) isBlank).mono fun result => ?_
    rintro ⟨pieces, padsPieces, rfl⟩
    exact ⟨pieces, padsPieces, by simp, rfl⟩

theorem keptText_eq (pads : Pads text element.text)
    (bare : element.children = [] → element.text = text.map String.toList)
    (fits : ∀ kept, text = some kept →
      kept ≠ "" ∧ (element.children ≠ [] → allBlank kept.toList = false)) :
    element.keptText = text := by
  unfold OpenElement.keptText
  obtain held | ⟨rfl, blank, held, isBlank⟩ := pads
  · rw [held]
    cases text with
    | none => rfl
    | some kept =>
      obtain ⟨nonempty, visible⟩ := fits kept rfl
      have filled : kept.toList.isEmpty = false := by simpa using nonempty
      simp only [Option.map_some, filled, Bool.false_or, String.ofList_toList]
      cases children : element.children with
      | nil => simp
      | cons child others => simp [visible (by simp [children])]
  · rw [held]
    cases children : element.children with
    | nil => exact absurd (held.symm.trans (bare children)) (by simp)
    | cons child others => simp [isBlank]

theorem unplaced_close {start : Nat} {scope : Scope} {pieces : Option (List Char)}
    {nodes : List Node} (placeless : tag.span = none) (span : Span)
    (read : (Content.ofNodes nodes.reverse).unplaced = settled)
    (kept : OpenElement.keptText { opened tag start scope with
      text := pieces, children := nodes } = tag.text) :
    (OpenElement.close { opened tag start scope with text := pieces, children := nodes }
      span).unplaced = ⟨tag, settled⟩ := by
  unfold OpenElement.close Element.unplaced Tag.unplaced
  rw [kept, read]
  obtain ⟨name, nsPrefix, declarations, attributes, text, place⟩ := tag
  simp only at placeless
  subst placeless
  rfl

/-- The innermost element of a tag, with what it holds. -/
def filled (reader : Reader) (tag : Tag) (start : Nat) (scope : Scope) (pieces : Option (List Char))
    (nodes : List Node) : Reader :=
  { reader with path :=
      { opened tag start scope with text := pieces, children := nodes } :: reader.path }

theorem yields_closing (reader : Reader) (start : Nat) (scope : Scope)
    (placeless : tag.span = none) (fits : tag.TextKept settled)
    {pieces : Option (List Char)} {nodes : List Node} (pads : Pads tag.text pieces)
    (bare : nodes = [] → pieces = tag.text.map String.toList)
    (read : (Content.ofNodes nodes.reverse).unplaced = settled) :
    (reader.filled tag start scope pieces nodes).Yields [(Markup.closing tag.writtenName).token]
      fun result => ∃ child, result = reader.attach (.element child) ∧
        child.unplaced = ⟨tag, settled⟩ := by
  have kept : OpenElement.keptText { opened tag start scope with
      text := pieces, children := nodes } = tag.text := by
    refine keptText_eq pads bare fun kept given => ?_
    obtain ⟨nonempty, visible⟩ := fits kept given
    refine ⟨nonempty, fun some => visible ?_⟩
    rintro rfl
    exact some (Content.unplaced_ofNodes_eq_empty.mp read)
  have path : (reader.filled tag start scope pieces nodes).path =
    { opened tag start scope with text := pieces, children := nodes } :: reader.path := rfl
  refine yields_cons fun first last => ?_
  have closes := step_closing path first last
  exact ⟨_, closes, yields_nil ⟨_, rfl, unplaced_close placeless _ read kept⟩⟩

theorem yields_selfClosing (tagged : Tagged naming tag within settledTag)
    (fits : settledTag.TextKept .empty) (sound : naming.Sound)
    (scope : reader.scope = naming.scope) (place : reader.path = [] → reader.root = none)
    (textless : settledTag.text.filter (· ≠ "") = none) :
    reader.Yields [(Markup.selfClosing settledTag.writtenName settledTag.entries).token]
      fun result => ∃ child, result = reader.attach (.element child) ∧
        child.unplaced = ⟨settledTag.reread, .empty⟩ := by
  have unwritten : settledTag.reread.text = none := by
    unfold Tag.reread
    cases given : settledTag.text with
    | none => rfl
    | some text => simp [given, Option.filter, (fits text given).1] at textless
  have placeless : settledTag.reread.span = none := tagged.unplaced
  refine yields_cons fun start stop => ?_
  have closes := step_selfClosing (openTag_tagged tagged sound scope place start stop)
  exact ⟨_, closes, yields_nil ⟨_, rfl, unplaced_close placeless _ rfl unwritten.symm⟩⟩

/-- The markup of an element is read as one child of the element around it, or as the root. -/
theorem yields_element (tagged : Tagged naming tag within settledTag) (sound : naming.Sound)
    (fits : settledTag.TextKept settled) {content : List Markup}
    (reads : ReadsAs within content settled.reread) (bare : settled = .empty → content = [])
    {first : Markup} {more : List Markup}
    (markup : settledTag.markup cdata settledTag.writtenName settledTag.entries settled content =
      first :: more)
    (spaced : Spaced false more tokens) (scope : reader.scope = naming.scope)
    (place : reader.path = [] → reader.root = none) :
    reader.Yields (first.token :: tokens) fun result => ∃ child,
      result = reader.attach (.element child) ∧
        child.unplaced = ⟨settledTag.reread, settled.reread⟩ := by
  unfold Tag.markup at markup
  split at markup
  · rename_i alone
    obtain ⟨rfl, rfl⟩ := List.cons.inj markup
    obtain ⟨empty, textless⟩ := Bool.and_eq_true_iff.mp alone
    obtain rfl := Content.eq_empty_of_isEmpty empty
    cases spaced
    exact yields_selfClosing tagged fits sound scope place (Option.isNone_iff_eq_none.mp textless)
  · rename_i whole
    obtain ⟨rfl, tail⟩ := List.cons.inj markup
    obtain rfl : settledTag.texts cdata ++ (content ++ [_]) = more := by simpa using tail
    obtain ⟨texts, others, rfl, spacedTexts, spacedOthers⟩ := spaced.split
    obtain ⟨inside, closing, rfl, spacedInside, spacedClosing⟩ := spacedOthers.split
    obtain rfl := spacedTexts.tokens_eq fun _ member => isText_of_mem_texts member
    obtain ⟨lead, after, isLead, done, rfl⟩ := spacedClosing.lead
    cases done
    -- An element without children has text, after which no blank may stand.
    have visible : settled = .empty → lead = [] := by
      rintro rfl
      refine isLead.resolve_right fun blank => ?_
      have ends := blank.1
      rw [bare rfl, endsInText] at ends
      simp [Content.isEmpty, text_eq_none fits ends] at whole
    have untold (ends : endsInText false (settledTag.texts cdata) = false) :
        settledTag.reread.text = none := by
      rw [Tag.reread, text_eq_none fits ends]
      rfl
    refine yields_cons fun start stop =>
      ⟨_, step_opening (openTag_tagged tagged sound scope place start stop), ?_⟩
    have opening : ({ reader with
        path := opened settledTag.reread start within.scope :: reader.path } : Reader).path =
      opened settledTag.reread start within.scope :: reader.path := rfl
    refine (yields_texts fits opening rfl rfl).append fun result same => ?_
    subst same
    refine (reads spacedInside (path_holding ..) rfl (.inl rfl)
      fun ends _ => untold ends).append fun result reached => ?_
    obtain ⟨pieces, nodes, rfl, pads, untouched, read⟩ := reached
    have children : nodes ++ (opened settledTag.reread start within.scope).children = nodes :=
      List.append_nil nodes
    have empty (none : nodes = []) : settled = .empty :=
      Content.reread_eq_empty_iff.mp
        (read.symm.trans (Content.unplaced_ofNodes_eq_empty.mpr none))
    have path : (reader.filled settledTag.reread start within.scope pieces nodes).path =
      { opened settledTag.reread start within.scope with text := pieces, children := nodes } ::
        reader.path := rfl
    rw [children]
    refine (yields_lead isLead path pads ?_).append fun result reached => ?_
    · intro ends none
      rw [bare (empty none)] at ends
      exact untold ends
    · obtain ⟨last, padsLast, unled, rfl⟩ := reached
      have placeless : settledTag.reread.span = none := tagged.unplaced
      exact yields_closing reader start within.scope placeless fits.reread padsLast
        (fun none => (unled (visible (empty none))).trans (untouched none)) read

theorem ReadsAs.after_child {markups : List Markup} (reads : ReadsAs naming markups settled)
    (spaced : Spaced false markups tokens) (scope : element.scope = naming.scope)
    {pieces : Option (List Char)} (pads : Pads text pieces) (child : Node) :
    ((reader.holding element outer pieces).attach child).Yields tokens fun result =>
      ∃ pieces nodes, result = { reader with path :=
        { element with text := pieces, children := nodes ++ element.children } :: outer } ∧
      Pads text pieces ∧ (nodes = [] → pieces = element.text) ∧
      ∃ later, nodes = later ++ [child] ∧ (Content.ofNodes later.reverse).unplaced = settled := by
  have path : ((reader.holding element outer pieces).attach child).path =
    { element with text := pieces, children := child :: element.children } :: outer := by
    cases child <;> rfl
  refine (reads spaced path scope pads (by simp)).mono fun result reached => ?_
  obtain ⟨last, later, rfl, padsLast, -, read⟩ := reached
  refine ⟨last, later ++ [child], ?_, padsLast, by simp, later, rfl, read⟩
  rw [List.append_assoc]
  cases child <;> rfl

/-- Every content that settles is read as it settles, with its line ends normalized. -/
theorem readsAs_of_settles (settles : Settles naming content after settled) (sound : naming.Sound) :
    ReadsAs naming (Markup.ofContent cdata naming content).2 settled.reread := by
  -- The induction hypotheses hold for any element around the content, with any children so far.
  induction settles with
  | empty naming =>
    intro before tokens reader element outer text spaced path scope pads fresh
    cases spaced
    refine yields_nil ⟨element.text, [], ?_, pads, fun _ => rfl, rfl⟩
    rw [List.nil_append, ← path]
  | @comment naming entry rest after settled fits settles ih =>
    intro before tokens reader element outer text spaced path scope pads fresh
    obtain ⟨lead, others, isLead, spacedRest, rfl⟩ := spaced.lead
    refine (yields_lead isLead path pads fresh).append fun result reached => ?_
    obtain ⟨pieces, padsPieces, -, rfl⟩ := reached
    refine yields_cons fun start stop => ⟨_, step_comment fits start stop, ?_⟩
    have reads : ReadsAs naming _ settled.reread := ih sound
    refine (reads.after_child spacedRest scope padsPieces _).mono fun result reached => ?_
    obtain ⟨last, nodes, same, padsLast, none, later, rfl, read⟩ := reached
    refine ⟨last, _, same, padsLast, none, ?_⟩
    rw [List.reverse_append, Content.reread, ← read]
    rfl
  | @element naming tag inner rest within between after settledTag settledInner settled tagged fits
      settlesInner settlesRest ihInner ihRest =>
    intro before tokens reader element outer text spaced path scope pads fresh
    have frames := settlesInner.leave_frames tagged
    have readsInner : ReadsAs within _ settledInner.reread := ihInner (tagged.sound_after sound)
    have readsRest : ReadsAs between.leave _ settled.reread := ihRest (sound.congr frames)
    obtain ⟨first, more, markup, kind, ends⟩ := settledTag.markup_eq_cons cdata
      settledTag.writtenName settledTag.entries settledInner (Markup.ofContent cdata within inner).2
    rw [ofContent_element tagged.written, settlesInner.naming_eq,
      ← tagged.markup_eq settlesInner.isEmpty_eq, markup, List.cons_append] at spaced
    obtain ⟨lead, others, isLead, spacedOthers, rfl⟩ := spaced.lead
    rw [kind] at spacedOthers
    obtain ⟨left, right, rfl, spacedElement, spacedRest⟩ := spacedOthers.split
    rw [ends] at spacedRest
    refine (yields_lead isLead path pads fresh).append fun result reached => ?_
    obtain ⟨pieces, padsPieces, -, rfl⟩ := reached
    have held : (reader.holding element outer pieces).scope = naming.scope := scope
    rw [← List.cons_append]
    refine (yields_element tagged sound fits readsInner settlesInner.ofContent_eq_nil markup
      spacedElement held (by simp [holding])).append fun result reached => ?_
    obtain ⟨child, rfl, read⟩ := reached
    refine (readsRest.after_child spacedRest (scope.trans (Naming.scope_congr frames).symm) padsPieces
      (.element child)).mono fun result reached => ?_
    obtain ⟨last, nodes, same, padsLast, none, later, rfl, readRest⟩ := reached
    refine ⟨last, _, same, padsLast, none, ?_⟩
    obtain ⟨readTag, readInner⟩ := Element.mk.inj read
    rw [List.reverse_append, Content.reread, ← readTag, ← readInner, ← readRest]
    rfl

end Reader
end KeyholeMarkup.Xml

import KeyholeMarkup.Proofs.Xml.SettledMarkup
import KeyholeMarkup.Xml.Reader

/-! Reading of settled documents. The reader takes the tokens of their markup without a fault and
puts them together again; only positions are new. -/
namespace KeyholeMarkup.Xml
open KeyholeMarkup.Source KeyholeMarkup.Text

theorem mapM_eq_ok {α β γ δ ε : Type} {read : α → Except ε δ} (look : α → γ) (shown : β → γ)
    (kept : β → δ) {items : List α} {results : List β} (same : items.map look = results.map shown)
    (each : ∀ result ∈ results, ∀ item, look item = shown result → read item = .ok (kept result)) :
    items.mapM read = .ok (results.map kept) := by
  induction results generalizing items with
  | nil =>
    obtain rfl : items = [] := by simpa using same
    rfl
  | cons result rest ih =>
    obtain ⟨item, others, rfl, head, tail⟩ := List.map_eq_cons_iff.mp same
    rw [List.mapM_cons, each result (by simp) item head,
      ih tail fun other member => each other (by simp [member])]
    rfl

namespace Reader

variable {naming after : Naming} {tag settledTag : Tag}

theorem entryOf_declaration (scope : Scope) (location : Span) {declaration : Declaration}
    (sound : declaration.Sound) {entry : WrittenAttribute}
    (reads : (entry.name, entry.value) = AttributeList.asWritten declaration.written) :
    entryOf scope location entry = .ok (.inl declaration) := by
  obtain ⟨name, value⟩ := Prod.mk.inj reads
  have uri : declaration.written.2 = declaration.uri := by
    unfold Declaration.written
    split <;> rfl
  have plain := sound.uri
  have stable : normalizeValue declaration.uri.toList = declaration.uri.toList :=
    normalizeValue_eq_self_iff.mpr ⟨fun member => (plain _ member).2.2.2 rfl,
      fun member => (plain _ member).2.2.1 rfl, fun member => (plain _ member).2.1 rfl⟩
  have expanded := expandReferences_normalizeValue_escape declaration.uri.toList
  rw [stable] at expanded
  unfold entryOf
  rw [value, uri, expanded, name, declaredPrefix?_written]
  have nsPrefix : (declaration.nsPrefix.map String.toList).map String.ofList =
      declaration.nsPrefix := by
    cases declaration.nsPrefix <;> simp
  simp only [bind, Except.bind, pure, Except.pure, nsPrefix, String.ofList_toList]

theorem entryOf_attribute (tagged : Tagged naming tag after settledTag) (sound : naming.Sound)
    (location : Span) {kept : Attribute} (member : kept ∈ settledTag.attributes)
    {entry : WrittenAttribute}
    (reads : (entry.name, entry.value) = AttributeList.asWritten kept.written) :
    entryOf after.scope location entry = .ok (.inr kept.reread) := by
  obtain ⟨name, value⟩ := Prod.mk.inj reads
  have fits := tagged.fits kept member
  have expanded := expandReferences_normalizeValue_escape kept.value.toList
  have split := splitName_qualified
    (fun part written => (tagged.attributePart sound member part written).1) fits.localName
  have soundAfter := tagged.sound_after sound
  have named := tagged.attributes kept member
  unfold entryOf
  rw [name, tagged.declaredPrefix?_attribute sound member, value]
  unfold Attribute.written
  rw [expanded, split]
  obtain ⟨⟨uri, localName⟩, nsPrefix, text⟩ := kept
  simp only at named
  cases named with
  | plain => simp [bind, Except.bind, pure, Except.pure, Name.plain, Attribute.reread]
  | xml =>
    have nonempty : (some xmlUri : Option String) ≠ some "" := by decide
    have resolves := soundAfter.resolve_xml
    simp only [bind, Except.bind, pure, Except.pure, Option.map_some, resolved, resolves,
      String.ofList_toList, within_of_ne_empty nonempty, Attribute.reread]
  | @bound nsPrefix uri _ found =>
    obtain ⟨-, -, -, nonempty⟩ := Naming.lookup?_eq_some found
    have kept : (some uri : Option String) ≠ some "" := by simpa using nonempty
    simp only [bind, Except.bind, pure, Except.pure, Option.map_some, resolved,
      soundAfter.resolve_some found, String.ofList_toList, within_of_ne_empty kept,
      Attribute.reread]

def opened (tag : Tag) (start : Nat) (scope : Scope) : OpenElement where
  name := tag.name
  written := tag.writtenName.toList
  nsPrefix := tag.nsPrefix
  declarations := tag.declarations
  attributes := tag.attributes
  start := start
  text := none
  children := []
  scope := scope

theorem enter_tagged (tagged : Tagged naming tag after settledTag) (sound : naming.Sound) :
    naming.scope.enter (Markup.tagContent settledTag.writtenName settledTag.entries) =
      .ok after.scope := by
  obtain ⟨reads, -⟩ := tagAttributes_tagContent false (tagged.isTagName sound)
    (tagged.isTagName_entries sound) fun _ => tagged.distinct sound
  have others : ∀ entry ∈ settledTag.attributes.map Attribute.written,
      declaredPrefix? entry.1.toList = none := by
    intro entry member
    obtain ⟨own, inTag, rfl⟩ := List.mem_map.mp member
    exact tagged.declaredPrefix?_attribute sound inTag
  rw [Scope.enter, foldlM_declare reads tagged.sound others, Naming.scope_of_frames tagged.frames]

theorem resolve_element (tagged : Tagged naming tag after settledTag) (sound : naming.Sound) :
    ∃ uri, after.scope.resolve (settledTag.nsPrefix.map String.toList) = .ok uri ∧
      uri.map String.ofList = settledTag.name.uri ∧ settledTag.name.uri ≠ some "" := by
  have soundAfter := tagged.sound_after sound
  have named := tagged.named
  generalize settledTag.nsPrefix = nsPrefix at named
  generalize settledTag.name.uri = uri at named
  cases named with
  | unbound found => exact ⟨_, soundAfter.resolve_none, by simp [found], by simp⟩
  | default found =>
    obtain ⟨-, -, -, nonempty⟩ := Naming.lookup?_eq_some found
    exact ⟨_, soundAfter.resolve_none, by simp [found], by simpa using nonempty⟩
  | bound found =>
    obtain ⟨-, -, -, nonempty⟩ := Naming.lookup?_eq_some found
    exact ⟨_, soundAfter.resolve_some found, by simp, by simpa using nonempty⟩

def entryAsWritten : Declaration ⊕ Attribute → List Char × List Char
  | .inl declaration => AttributeList.asWritten declaration.written
  | .inr own => AttributeList.asWritten own.written

theorem entries_tagged (tagged : Tagged naming tag after settledTag) (sound : naming.Sound)
    (location : Span) :
    (tagAttributes true (Markup.tagContent settledTag.writtenName
      settledTag.entries)).attributes.mapM (entryOf after.scope location) =
      .ok (settledTag.declarations.map Sum.inl ++ settledTag.reread.attributes.map Sum.inr) := by
  obtain ⟨reads, -⟩ := tagAttributes_tagContent true (tagged.isTagName sound)
    (tagged.isTagName_entries sound) fun _ => tagged.distinct sound
  have items : settledTag.entries.map AttributeList.asWritten =
      (settledTag.declarations.map Sum.inl ++ settledTag.attributes.map Sum.inr).map
        entryAsWritten := by
    simp [Tag.entries, Function.comp_def, entryAsWritten]
  have results : settledTag.declarations.map Sum.inl ++ settledTag.reread.attributes.map Sum.inr =
      (settledTag.declarations.map Sum.inl ++ settledTag.attributes.map Sum.inr).map
        (Sum.map id Attribute.reread) := by
    simp [Tag.reread, Function.comp_def]
  rw [results]
  refine mapM_eq_ok _ _ _ (reads.trans items) ?_
  intro result member item same
  obtain declared | given := List.mem_append.mp member
  · obtain ⟨declaration, inTag, rfl⟩ := List.mem_map.mp declared
    exact entryOf_declaration _ _ (tagged.sound declaration inTag) same
  · obtain ⟨own, inTag, rfl⟩ := List.mem_map.mp given
    exact entryOf_attribute tagged sound _ inTag same

theorem openTag_tagged (tagged : Tagged naming tag after settledTag) (sound : naming.Sound)
    {reader : Reader} (scope : reader.scope = naming.scope)
    (place : reader.path = [] → reader.root = none) (start stop : Nat) :
    reader.openTag (Markup.tagContent settledTag.writtenName settledTag.entries) start stop =
      .ok (opened settledTag.reread start after.scope) := by
  have named := tagged.isTagName sound
  obtain ⟨-, complete⟩ := tagAttributes_tagContent true named
    (tagged.isTagName_entries sound) fun _ => tagged.distinct sound
  have inside : (reader.path.isEmpty && reader.root.isSome) = false := by
    cases path : reader.path with
    | nil => simp [place path]
    | cons element outer => rfl
  obtain ⟨uri, resolves, uriEq, nonempty⟩ := resolve_element tagged sound
  have split : splitName settledTag.writtenName.toList = _ :=
    splitName_qualified (tagged.elementPart sound) tagged.localName
  have nsPrefix : (settledTag.nsPrefix.map String.toList).map String.ofList =
      settledTag.nsPrefix := by
    cases settledTag.nsPrefix <;> simp
  unfold openTag
  simp only [bind, Except.bind, pure, Except.pure, scope, enter_tagged tagged sound, inside,
    tagName_tagContent named, split, resolves, resolved, entries_tagged tagged sound, complete]
  rw [if_neg Bool.false_ne_true, uriEq, String.ofList_toList, within_of_ne_empty nonempty, nsPrefix]
  have declarations : (settledTag.declarations.map Sum.inl ++ settledTag.reread.attributes.map
      Sum.inr).filterMap Sum.getLeft? = settledTag.declarations := by
    simp [List.filterMap_map, Function.comp_def]
  have attributes : (settledTag.declarations.map Sum.inl ++ settledTag.reread.attributes.map
      Sum.inr).filterMap Sum.getRight? = settledTag.reread.attributes := by
    simp [List.filterMap_map, Function.comp_def]
  rw [declarations, attributes]
  rfl

/-- Wherever tokens stand, the reader takes them and is then in a certain state. -/
def Yields (reader : Reader) (tokens : List Token) (post : Reader → Prop) : Prop :=
  ∀ lexemes : List Lexeme, lexemes.map (·.token) = tokens →
    ∃ result, reader.run lexemes = (result, none) ∧ post result

variable {reader : Reader} {tokens rest : List Token} {token : Token} {post next : Reader → Prop}

theorem yields_nil (holds : post reader) : reader.Yields [] post := by
  intro lexemes none
  obtain rfl : lexemes = [] := by simpa using none
  exact ⟨reader, rfl, holds⟩

theorem yields_cons (steps : ∀ start stop, ∃ result, reader.step ⟨token, start, stop⟩ = .ok result ∧
    result.Yields rest post) : reader.Yields (token :: rest) post := by
  intro lexemes same
  obtain ⟨lexeme, others, rfl, rfl, tail⟩ := List.map_eq_cons_iff.mp same
  obtain ⟨result, step, yields⟩ := steps lexeme.start lexeme.stop
  obtain ⟨final, run, holds⟩ := yields others tail
  refine ⟨final, ?_, holds⟩
  rw [Reader.run, step]
  exact run

theorem run_append {result : Reader} {first : List Lexeme} (second : List Lexeme)
    (run : reader.run first = (result, none)) :
    reader.run (first ++ second) = result.run second := by
  induction first generalizing reader with
  | nil =>
    obtain ⟨rfl, -⟩ := Prod.mk.inj run
    rfl
  | cons lexeme others ih =>
    rw [List.cons_append, Reader.run]
    rw [Reader.run] at run
    cases step : reader.step lexeme with
    | ok after =>
      rw [step] at run
      exact ih run
    | error error =>
      rw [step] at run
      exact absurd (Prod.mk.inj run).2 (by simp)

theorem Yields.append (first : reader.Yields tokens post)
    (second : ∀ result, post result → result.Yields rest next) :
    reader.Yields (tokens ++ rest) next := by
  intro lexemes same
  obtain ⟨left, right, rfl, leftTokens, rightTokens⟩ := List.map_eq_append_iff.mp same
  obtain ⟨middle, run, holds⟩ := first left leftTokens
  obtain ⟨result, runRest, holdsRest⟩ := second middle holds right rightTokens
  exact ⟨result, (run_append right run).trans runRest, holdsRest⟩

theorem Yields.mono (yields : reader.Yields tokens post) (weaker : ∀ result, post result → next result) :
    reader.Yields tokens next := by
  intro lexemes same
  obtain ⟨result, run, holds⟩ := yields lexemes same
  exact ⟨result, run, weaker result holds⟩

/-- What an open element holds of a text: the text or, while there is none, blanks. -/
def Pads (text : Option String) (pieces : Option (List Char)) : Prop :=
  pieces = text.map String.toList ∨ text = none ∧ ∃ blank, pieces = some blank ∧ allBlank blank

variable {element : OpenElement} {outer : List OpenElement} {text : Option String}

/-- A reader with some pieces of text in its innermost element. -/
def holding (reader : Reader) (element : OpenElement) (outer : List OpenElement)
    (pieces : Option (List Char)) : Reader :=
  { reader with path := { element with text := pieces } :: outer }

theorem path_holding (reader : Reader) (element : OpenElement) (outer : List OpenElement)
    (pieces : Option (List Char)) :
    (reader.holding element outer pieces).path = { element with text := pieces } :: outer := rfl

theorem holding_text (path : reader.path = element :: outer) :
    reader.holding element outer element.text = reader := by
  rw [holding, ← path]

theorem not_isSpecial_of_isBlank {c : Char} (blank : isBlank c) : isSpecial c = false := by
  cases special : isSpecial c with
  | false => rfl
  | true =>
    simp only [isSpecial, Bool.or_eq_true, beq_iff_eq] at special
    obtain (((rfl | rfl) | rfl) | rfl) | rfl := special <;> exact absurd blank (by decide)

theorem expand_blank {lead : List Char} (blank : allBlank lead) :
    expandReferences (normalizeLineEnds lead) = .ok (normalizeLineEnds lead) := by
  have plain := List.all_eq_true.mp ((allBlank_normalizeLineEnds lead).trans blank)
  have same : escape (normalizeLineEnds lead) = normalizeLineEnds lead :=
    escape_eq_self fun c member => not_isSpecial_of_isBlank (plain c member)
  rw [← same, expandReferences_escape, same]

theorem step_text (path : reader.path = element :: outer) (fresh : element.children = [])
    (written : List Char) (start stop : Nat) :
    reader.step ⟨.text (escape written), start, stop⟩ = .ok (reader.holding element outer
      (some (element.text.getD [] ++ normalizeLineEnds written))) := by
  simp [holding, Reader.step, expandReferences_normalizeLineEnds_escape, addText, path, fresh]

theorem step_cdata (path : reader.path = element :: outer) (fresh : element.children = [])
    (written : List Char) (start stop : Nat) :
    reader.step ⟨.cdata written, start, stop⟩ = .ok (reader.holding element outer
      (some (element.text.getD [] ++ normalizeLineEnds written))) := by
  simp [holding, Reader.step, addText, path, fresh]

theorem step_opening {content : List Char} {start stop : Nat}
    (read : reader.openTag content start stop = .ok element) :
    reader.step ⟨.opening content, start, stop⟩ =
      .ok { reader with path := element :: reader.path } := by
  simp [Reader.step, read, bind, Except.bind, pure, Except.pure]

theorem step_selfClosing {content : List Char} {start stop : Nat}
    (read : reader.openTag content start stop = .ok element) :
    reader.step ⟨.selfClosing content, start, stop⟩ =
      .ok (reader.attach (.element (element.close (reader.span start stop)))) := by
  simp [Reader.step, read, bind, Except.bind, pure, Except.pure]

theorem step_closing (path : reader.path = element :: outer) (start stop : Nat) :
    reader.step ⟨.closing element.written, start, stop⟩ =
      .ok ({ reader with path := outer }.attach
        (.element (element.close (reader.span element.start stop)))) := by
  simp [Reader.step, closeTag, path]

theorem step_comment {entry : Comment} (fits : entry.Fits) (start stop : Nat) :
    reader.step ⟨.comment entry.text.toList, start, stop⟩ =
      .ok (reader.attach (.comment ⟨entry.text, some (reader.span start stop)⟩)) := by
  simp [Reader.step, normalizeLineEnds_eq_self_iff.mpr fits.line]

/-- Blanks are kept where they do no harm only: before the first child of an element without text. -/
theorem yields_blank (path : reader.path = element :: outer) (pads : Pads text element.text)
    (fresh : element.children = [] → text = none) {lead : List Char} (blank : allBlank lead) :
    reader.Yields [.text lead] fun result => ∃ pieces, Pads text pieces ∧
      result = reader.holding element outer pieces := by
  refine yields_cons fun start stop => ?_
  have lineEnds := (allBlank_normalizeLineEnds lead).trans blank
  by_cases children : element.children = []
  · refine ⟨reader.holding element outer (some (element.text.getD [] ++ normalizeLineEnds lead)),
      by simp [holding, Reader.step, expand_blank blank, addText, path, children],
      yields_nil ⟨_, .inr ⟨fresh children, _, rfl, ?_⟩, rfl⟩⟩
    obtain held | ⟨-, before, held, blankBefore⟩ := pads
    · rw [held, fresh children]
      exact lineEnds
    · rw [held, Option.getD_some, allBlank, List.all_append, Bool.and_eq_true]
      exact ⟨blankBefore, lineEnds⟩
  · refine ⟨reader, by simp [Reader.step, expand_blank blank, addText, path, children, lineEnds],
      yields_nil ⟨element.text, pads, (holding_text path).symm⟩⟩

theorem yields_parts {parts : List (List Char)} {before : List Char}
    (path : reader.path = element :: outer) (fresh : element.children = [])
    (held : element.text = some before) :
    reader.Yields (parts.map .cdata) fun result => result = reader.holding element outer
      (some (before ++ (parts.map normalizeLineEnds).flatten)) := by
  induction parts generalizing reader element before with
  | nil =>
    refine yields_nil ?_
    rw [List.map_nil, List.flatten_nil, List.append_nil, ← held, holding_text path]
  | cons part others ih =>
    refine yields_cons fun start stop => ⟨_, step_cdata path fresh part start stop, ?_⟩
    have added := path_holding reader element outer
      (some (element.text.getD [] ++ normalizeLineEnds part))
    refine (ih added fresh rfl).mono fun result same => ?_
    rw [same, held, List.map_cons, List.flatten_cons, Option.getD_some, List.append_assoc]
    rfl

/-- The text of a tag is taken piece by piece. -/
theorem yields_texts {cdata : List Name} {inner : Content} (kept : tag.TextKept inner)
    (path : reader.path = element :: outer) (fresh : element.children = [])
    (empty : element.text = none) :
    reader.Yields ((tag.texts cdata).map Markup.token) fun result =>
      result = reader.holding element outer (tag.reread.text.map String.toList) := by
  unfold Tag.reread
  cases given : tag.text with
  | none =>
    have none : tag.texts cdata = [] := by simp [Tag.texts, given]
    rw [none]
    refine yields_nil ?_
    simp only [Option.map_none]
    rw [← empty, holding_text path]
  | some text =>
    obtain ⟨nonempty, -⟩ := kept text given
    have texts : tag.texts cdata = textMarkup cdata tag text := by
      simp [Tag.texts, given, Option.filter, nonempty]
    simp only [Option.map_some, rereadText, String.toList_ofList]
    rw [texts, textMarkup]
    split
    · have whole := flatten_map_cdataSections text.toList
      have tokens : ((cdataSections text.toList).map fun part => Markup.cdata (String.ofList part)).map
          Markup.token = (cdataSections text.toList).map .cdata := by
        simp [Function.comp_def, Markup.token]
      rw [tokens]
      obtain ⟨first, others, sections⟩ := List.exists_cons_of_ne_nil
        (cdataSections_ne_nil text.toList)
      rw [sections] at whole ⊢
      refine yields_cons fun start stop => ⟨_, step_cdata path fresh first start stop, ?_⟩
      have added := path_holding reader element outer
        (some (element.text.getD [] ++ normalizeLineEnds first))
      refine (yields_parts added fresh rfl).mono fun result same => ?_
      rw [same, ← whole, empty]
      rfl
    · refine yields_cons fun start stop => ⟨_, step_text path fresh text.toList start stop, ?_⟩
      refine yields_nil ?_
      rw [empty]
      rfl

end Reader
end KeyholeMarkup.Xml

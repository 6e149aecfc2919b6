import KeyholeMarkup.Proofs.Xml.Layout
import KeyholeMarkup.Proofs.Xml.Presentation
import KeyholeMarkup.Proofs.Xml.Settled

/-! The markup of settled documents. It is the markup of the documents that they are read from, and
every piece of it is read as one token. -/
namespace KeyholeMarkup.Xml
open KeyholeMarkup.Text

def Tag.texts (cdata : List Name) (tag : Tag) : List Markup :=
  ((tag.text.filter (· ≠ "")).map (textMarkup cdata tag)).getD []

/-- The markup of an element around that of its content. -/
def Tag.markup (cdata : List Name) (tag : Tag) (name : String) (attributes : List (String × String))
    (inner : Content) (content : List Markup) : List Markup :=
  if inner.isEmpty && (tag.text.filter (· ≠ "")).isNone then [.selfClosing name attributes]
  else .opening name attributes :: (tag.texts cdata ++ content) ++ [.closing name]

variable {naming after within between other : Naming} {tag settledTag : Tag}
  {inner rest content settled : Content} {cdata : List Name}

theorem ofContent_element {name : String} {attributes : List (String × String)}
    (written : naming.tag tag = (within, name, attributes)) :
    Markup.ofContent cdata naming (.element tag inner rest) =
      ((Markup.ofContent cdata (Markup.ofContent cdata within inner).1.leave rest).1,
        tag.markup cdata name attributes inner (Markup.ofContent cdata within inner).2 ++
          (Markup.ofContent cdata (Markup.ofContent cdata within inner).1.leave rest).2) := by
  unfold Tag.markup Tag.texts
  cases inner with
  | empty =>
    cases kept : tag.text.filter (· ≠ "") with
    | none =>
      simp only [Markup.ofContent, written, kept]
      rfl
    | some text =>
      simp only [Markup.ofContent, written, kept]
      simp
  | comment entry others => simp [Markup.ofContent, written, Content.isEmpty]
  | element child innermost others => simp [Markup.ofContent, written, Content.isEmpty]

theorem Settles.naming_eq (settles : Settles naming content after settled) :
    (Markup.ofContent cdata naming content).1 = after := by
  induction settles with
  | empty naming => rfl
  | comment fits settles ih => exact ih
  | element tagged fits settlesInner settlesRest ihInner ihRest =>
    rw [ofContent_element tagged.written, ihInner]
    exact ihRest

theorem Settles.frames_eq (settles : Settles naming content after settled) :
    after.frames = naming.frames := by
  induction settles with
  | empty naming => rfl
  | comment fits settles ih => exact ih
  | element tagged fits settlesInner settlesRest ihInner ihRest =>
    rw [ihRest, Naming.leave, ihInner, tagged.frames]
    rfl

theorem Settles.leave_frames (settles : Settles within inner between settled)
    (tagged : Tagged naming tag within settledTag) : between.leave.frames = naming.frames :=
  Naming.leave_frames (settles.frames_eq.trans tagged.frames)

theorem Naming.Sound.congr (sound : naming.Sound) (same : other.frames = naming.frames) :
    other.Sound := by
  rwa [Naming.Sound, Naming.declarations_congr same]

theorem Settles.isEmpty_eq (settles : Settles naming content after settled) :
    settled.isEmpty = content.isEmpty := by
  cases settles <;> rfl

theorem Settles.ofContent_eq_nil (settles : Settles naming content after settled)
    (empty : settled = .empty) : (Markup.ofContent cdata naming content).2 = [] := by
  subst empty
  cases settles
  rfl

theorem Tag.markup_eq_cons (cdata : List Name) (tag : Tag) (name : String)
    (attributes : List (String × String)) (inner : Content) (content : List Markup) :
    ∃ first more, tag.markup cdata name attributes inner content = first :: more ∧
      first.isText = false ∧ endsInText false more = false := by
  unfold Tag.markup
  split
  · exact ⟨_, [], rfl, rfl, rfl⟩
  · refine ⟨_, _, rfl, rfl, ?_⟩
    simp [endsInText, Markup.isText]

theorem Tagged.rewritten (tagged : Tagged naming tag after settledTag)
    (same : other.frames = naming.frames) :
    ∃ within, within.frames = after.frames ∧
      other.tag settledTag = (within, settledTag.writtenName, settledTag.entries) := by
  have frames : (other.enter settledTag.declarations).frames = after.frames := by
    rw [Naming.enter, same, tagged.frames]
  refine ⟨other.enter settledTag.declarations, frames, ?_⟩
  unfold Naming.tag
  simp only [(tagged.named.congr frames).elementName, Naming.attributeNames_of_named
    fun entry member => (tagged.attributes entry member).congr frames]
  rfl

theorem Tagged.markup_eq (tagged : Tagged naming tag after settledTag) {name : String}
    {attributes : List (String × String)} {settledInner : Content} {markup : List Markup}
    (same : settledInner.isEmpty = inner.isEmpty) :
    settledTag.markup cdata name attributes settledInner markup =
      tag.markup cdata name attributes inner markup := by
  unfold Tag.markup Tag.texts textMarkup
  rw [same, tagged.text_eq, tagged.name_eq]

/-- Where the same declarations are in scope, a settled content has the markup that it is read
from. -/
theorem Settles.rewritten (settles : Settles naming content after settled)
    (same : other.frames = naming.frames) :
    (Markup.ofContent cdata other settled).2 = (Markup.ofContent cdata naming content).2 ∧
      (Markup.ofContent cdata other settled).1.frames = after.frames := by
  induction settles generalizing other with
  | empty naming => exact ⟨rfl, same⟩
  | comment fits settles ih =>
    obtain ⟨markup, frames⟩ := ih same
    exact ⟨by simp only [Markup.ofContent, markup], frames⟩
  | @element naming tag inner rest within between after settledTag settledInner settled tagged fits
      settlesInner settlesRest ihInner ihRest =>
    obtain ⟨entered, frames, written⟩ := tagged.rewritten same
    obtain ⟨innerMarkup, innerFrames⟩ := ihInner frames
    have left : (Markup.ofContent cdata entered settledInner).1.leave.frames =
        between.leave.frames := by
      rw [Naming.leave, Naming.leave, innerFrames]
    obtain ⟨restMarkup, restFrames⟩ := ihRest left
    -- The number of prefixes made up may differ, but no name depends on it any more.
    rw [ofContent_element written, ofContent_element tagged.written, settlesInner.naming_eq]
    refine ⟨?_, restFrames⟩
    rw [innerMarkup, restMarkup, tagged.markup_eq settlesInner.isEmpty_eq]

theorem Tag.TextKept.reread (kept : tag.TextKept inner) : tag.reread.TextKept inner.reread := by
  intro text given
  obtain ⟨written, inTag, rfl⟩ := Option.map_eq_some_iff.mp given
  obtain ⟨nonempty, visible⟩ := kept written inTag
  refine ⟨rereadText_ne_empty nonempty, ?_⟩
  intro some
  rw [rereadText, String.toList_ofList, allBlank_normalizeLineEnds]
  exact visible (mt Content.reread_eq_empty_iff.mpr some)

/-- Only prefixes, declarations and positions change when a content settles. -/
theorem Settles.bare_eq (settles : Settles naming content after settled) :
    settled.bare = content.bare := by
  induction settles with
  | empty naming => rfl
  | comment fits settles ih =>
    rw [Content.bare, Content.bare, ih]
    rfl
  | element tagged fits settlesInner settlesRest ihInner ihRest =>
    rw [Content.bare, Content.bare, ihInner, ihRest, Tag.same_iff.mp tagged.same]

theorem Tag.mem_texts {markup : Markup} (member : markup ∈ tag.texts cdata) :
    ∃ text ≠ "", markup = .text text ∨
      ∃ part ∈ cdataSections text.toList, markup = .cdata (String.ofList part) := by
  unfold Tag.texts textMarkup at member
  cases kept : tag.text.filter (· ≠ "") with
  | none =>
    rw [kept] at member
    contradiction
  | some text =>
    refine ⟨text, by simpa using (Option.filter_eq_some_iff.mp kept).2, ?_⟩
    simp only [kept, Option.map_some, Option.getD_some] at member
    split at member
    · obtain ⟨part, inText, rfl⟩ := List.mem_map.mp member
      exact .inr ⟨part, inText, rfl⟩
    · exact .inl (List.mem_singleton.mp member)

theorem isText_of_mem_texts {markup : Markup} (member : markup ∈ tag.texts cdata) :
    markup.isText = true := by
  obtain ⟨text, -, rfl | ⟨part, -, rfl⟩⟩ := Tag.mem_texts member <;> rfl

theorem clean_of_mem_texts {markup : Markup} (member : markup ∈ tag.texts cdata) :
    markup.Clean := by
  obtain ⟨text, nonempty, rfl | ⟨part, inText, rfl⟩⟩ := Tag.mem_texts member
  · rw [Markup.Clean]
    simpa using nonempty
  · rw [Markup.Clean, String.toList_ofList]
    exact not_infix_of_mem_cdataSections inText

theorem textsApart_texts : TextsApart false (tag.texts cdata) := by
  unfold Tag.texts textMarkup
  cases tag.text.filter (· ≠ "") with
  | none => trivial
  | some text =>
    simp only [Option.map_some, Option.getD_some]
    split
    · generalize false = before
      induction cdataSections text.toList generalizing before with
      | nil => trivial
      | cons part others ih => exact ⟨fun _ _ => by simp, ih _⟩
    · exact ⟨by simp, trivial⟩

theorem Settles.textsApart (settles : Settles naming content after settled) :
    ∀ before, TextsApart before (Markup.ofContent cdata naming content).2 ∧
      endsInText before (Markup.ofContent cdata naming content).2 =
        (before && content.isEmpty) := by
  induction settles with
  | empty naming => intro before; simp [Markup.ofContent, TextsApart, endsInText, Content.isEmpty]
  | comment fits settles ih =>
    intro before
    obtain ⟨apart, ends⟩ := ih false
    refine ⟨⟨fun _ _ => by simp, apart⟩, ?_⟩
    rw [Bool.false_and] at ends
    exact ends.trans (Bool.and_false before).symm
  | @element naming tag inner rest within between after settledTag settledInner settled tagged fits
      settlesInner settlesRest ihInner ihRest =>
    intro before
    -- An element does not end in text, whatever its content ends in.
    obtain ⟨apartRest, endsRest⟩ := ihRest false
    rw [ofContent_element tagged.written, settlesInner.naming_eq]
    have element : ∀ name attributes,
        TextsApart before (tag.markup cdata name attributes inner
          (Markup.ofContent cdata within inner).2) ∧
        endsInText before (tag.markup cdata name attributes inner
          (Markup.ofContent cdata within inner).2) = false := by
      intro name attributes
      unfold Tag.markup
      split
      · exact ⟨⟨fun _ _ => by simp, trivial⟩, rfl⟩
      · simp [TextsApart, endsInText, textsApart_texts, (ihInner _).1, Markup.isText]
    obtain ⟨apart, ends⟩ := element settledTag.writtenName settledTag.entries
    rw [textsApart_append, endsInText_append, ends]
    exact ⟨⟨apart, apartRest⟩, by simpa [Content.isEmpty] using endsRest⟩

theorem Settles.clean (settles : Settles naming content after settled) (sound : naming.Sound) :
    ∀ markup ∈ (Markup.ofContent cdata naming content).2, markup.Clean := by
  induction settles with
  | empty naming => simp [Markup.ofContent]
  | comment fits settles ih =>
    intro markup member
    obtain rfl | later := List.mem_cons.mp member
    · exact fits.closed
    · exact ih sound markup later
  | @element naming tag inner rest within between after settledTag settledInner settled tagged fits
      settlesInner settlesRest ihInner ihRest =>
    intro markup member
    have soundWithin := tagged.sound_after sound
    have soundLeft : between.leave.Sound := sound.congr (settlesInner.leave_frames tagged)
    have named := tagged.isTagName sound
    have attributes := tagged.isTagName_entries sound
    rw [ofContent_element tagged.written, settlesInner.naming_eq] at member
    obtain inElement | inRest := List.mem_append.mp member
    · rw [← tagged.markup_eq settlesInner.isEmpty_eq] at inElement
      unfold Tag.markup at inElement
      split at inElement
      · rw [List.mem_singleton.mp inElement]
        exact ⟨named, attributes⟩
      · simp only [List.cons_append, List.mem_cons, List.append_assoc, List.mem_append,
          List.not_mem_nil, or_false] at inElement
        obtain rfl | inTexts | inContent | rfl := inElement
        · exact ⟨named, attributes⟩
        · exact clean_of_mem_texts inTexts
        · exact ihInner soundWithin markup inContent
        · exact named
    · exact ihRest soundLeft markup inRest

end KeyholeMarkup.Xml

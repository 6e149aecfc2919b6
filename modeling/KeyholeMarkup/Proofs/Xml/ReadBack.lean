import KeyholeMarkup.Proofs.Xml.Reassembly

/-! Documents read back. A written document that settles is read as it settles, and it is written
once more as before. -/
namespace KeyholeMarkup.Xml
open KeyholeMarkup.Source KeyholeMarkup.Text

namespace Reader

variable {reader : Reader} {tokens : List Token} {before : Bool}

theorem yields_outside {lead : List Token} (isLead : IsLead before lead) (path : reader.path = []) :
    reader.Yields lead (· = reader) := by
  obtain rfl | ⟨-, blank, isBlank, rfl⟩ := isLead
  · exact yields_nil rfl
  · have lineEnds := (allBlank_normalizeLineEnds blank).trans isBlank
    exact yields_cons fun start stop => ⟨reader,
      by simp [Reader.step, expand_blank isBlank, addText, path, lineEnds], yields_nil rfl⟩

def attachAll (reader : Reader) (comments : List Comment) : Reader :=
  comments.foldl (fun reader entry => reader.attach (.comment entry)) reader

theorem attachAll_leading (path : reader.path = []) (rootless : reader.root = none)
    (comments : List Comment) :
    reader.attachAll comments = { reader with leading := comments.reverse ++ reader.leading } := by
  induction comments generalizing reader with
  | nil => rfl
  | cons entry rest ih =>
    have attached : reader.attach (.comment entry) =
        { reader with leading := entry :: reader.leading } := by
      simp [attach, path, rootless]
    rw [attachAll, List.foldl_cons, attached]
    refine (@ih { reader with leading := entry :: reader.leading } path rootless).trans ?_
    simp

theorem attachAll_trailing (path : reader.path = []) {root : Element} (read : reader.root = some root)
    (comments : List Comment) :
    reader.attachAll comments = { reader with trailing := comments.reverse ++ reader.trailing } := by
  induction comments generalizing reader with
  | nil => rfl
  | cons entry rest ih =>
    have attached : reader.attach (.comment entry) =
        { reader with trailing := entry :: reader.trailing } := by
      simp [attach, path, read]
    rw [attachAll, List.foldl_cons, attached]
    refine (@ih { reader with trailing := entry :: reader.trailing } path read).trans ?_
    simp

theorem path_attach_comment (path : reader.path = []) (entry : Comment) :
    (reader.attach (.comment entry)).path = [] := by
  unfold attach
  simp only [path]
  split <;> rfl

theorem yields_comments (path : reader.path = []) {comments : List Comment}
    (fits : ∀ entry ∈ comments, entry.Fits)
    (spaced : Spaced before (comments.map (.comment ·.text)) tokens) :
    reader.Yields tokens fun result => ∃ read,
      read.map Comment.unplaced = comments.map Comment.unplaced ∧
      result = reader.attachAll read := by
  induction comments generalizing reader before tokens with
  | nil =>
    cases spaced
    exact yields_nil ⟨[], rfl, rfl⟩
  | cons entry rest ih =>
    obtain ⟨lead, others, isLead, spacedRest, rfl⟩ := spaced.lead
    refine (yields_outside isLead path).append fun result same => ?_
    subst same
    refine yields_cons fun start stop => ⟨_, step_comment (fits entry (by simp)) start stop, ?_⟩
    refine (ih (path_attach_comment path _) (fun other member => fits other (by simp [member]))
      spacedRest).mono fun final reached => ?_
    obtain ⟨read, same, rfl⟩ := reached
    exact ⟨_ :: read, by rw [List.map_cons, same]; rfl, rfl⟩

theorem yields_head {options : WriteOptions} (path : reader.path = [])
    (spaced : Spaced before options.head tokens) : reader.Yields tokens (· = reader) := by
  unfold WriteOptions.head at spaced
  split at spaced
  · obtain ⟨lead, others, isLead, done, rfl⟩ := spaced.lead
    cases done
    refine (yields_outside isLead path).append fun result same => ?_
    subst same
    exact yields_cons fun start stop => ⟨_, rfl, yields_nil rfl⟩
  · cases spaced
    exact yields_nil rfl

end Reader

variable {after : Naming} {document : Document} {settledTag : Tag} {settledInner : Content}

/-- A document that can be written: its comments end where they should and its root settles. -/
structure DocumentWrites (document : Document) (after : Naming) (settledTag : Tag)
    (settledInner : Content) : Prop where
  leading : ∀ entry ∈ document.leading, entry.Fits
  root : Settles Naming.initial (.element document.root.tag document.root.content .empty) after
    (.element settledTag settledInner .empty)
  trailing : ∀ entry ∈ document.trailing, entry.Fits

/-- The document that is read: the settled root, once more normalized, between the same comments. -/
structure ReadBack (document : Document) (settledTag : Tag) (settledInner : Content)
    (read : Document) : Prop where
  leading : read.leading.map Comment.unplaced = document.leading.map Comment.unplaced
  root : read.root.unplaced = ⟨settledTag.reread, settledInner.reread⟩
  trailing : read.trailing.map Comment.unplaced = document.trailing.map Comment.unplaced

theorem textsApart_comments (comments : List Comment) :
    ∀ before, TextsApart before (comments.map (Markup.comment ·.text)) ∧
      endsInText false (comments.map (Markup.comment ·.text)) = false := by
  induction comments with
  | nil => exact fun _ => ⟨trivial, rfl⟩
  | cons entry rest ih => exact fun _ => ⟨⟨fun _ _ => by simp, (ih false).1⟩, (ih false).2⟩

namespace DocumentWrites

variable (writes : DocumentWrites document after settledTag settledInner)
include writes

theorem ofElement_eq_cons (cdata : List Name) :
    ∃ first more, Markup.ofElement cdata document.root = first :: more ∧ first.isText = false := by
  cases writes.root with
  | element tagged fits settlesInner settlesRest =>
    unfold Markup.ofElement
    rw [ofContent_element tagged.written]
    obtain ⟨first, more, markup, kind, -⟩ := document.root.tag.markup_eq_cons cdata
      settledTag.writtenName settledTag.entries document.root.content
      (Markup.ofContent cdata _ document.root.content).2
    exact ⟨first, _, by rw [markup]; rfl, kind⟩

theorem yields_root {cdata : List Name} {reader : Reader} {tokens : List Token} {before : Bool}
    (spaced : Spaced before (Markup.ofElement cdata document.root) tokens)
    (path : reader.path = []) (rootless : reader.root = none) :
    reader.Yields tokens fun result => ∃ child, result = reader.attach (.element child) ∧
      child.unplaced = ⟨settledTag.reread, settledInner.reread⟩ := by
  have scope : reader.scope = Naming.initial.scope := by
    rw [Reader.scope, path]
    rfl
  cases writes.root with
  | @element _ _ _ _ within between _ _ _ _ tagged fits settlesInner settlesRest =>
    have reads : Reader.ReadsAs within (Markup.ofContent cdata within document.root.content).2
        settledInner.reread :=
      Reader.readsAs_of_settles settlesInner (tagged.sound_after Naming.sound_initial)
    unfold Markup.ofElement at spaced
    rw [ofContent_element tagged.written, settlesInner.naming_eq,
      ← tagged.markup_eq settlesInner.isEmpty_eq, Markup.ofContent, List.append_nil] at spaced
    obtain ⟨first, more, markup, kind, -⟩ := settledTag.markup_eq_cons cdata settledTag.writtenName
      settledTag.entries settledInner (Markup.ofContent cdata within document.root.content).2
    rw [markup] at spaced
    obtain ⟨lead, others, isLead, spacedRest, rfl⟩ := spaced.lead
    rw [kind] at spacedRest
    refine (Reader.yields_outside isLead path).append fun result same => ?_
    subst same
    exact Reader.yields_element tagged Naming.sound_initial fits reads settlesInner.ofContent_eq_nil
      markup spacedRest scope fun _ => rootless

theorem ofDocument_eq_cons (cdata : List Name) :
    ∃ first rest, Markup.ofDocument cdata document = first :: rest ∧ first.isText = false := by
  obtain ⟨first, more, written, kind⟩ := writes.ofElement_eq_cons cdata
  unfold Markup.ofDocument
  cases document.leading with
  | nil => exact ⟨first, _, by rw [written]; rfl, kind⟩
  | cons entry rest => exact ⟨_, _, rfl, rfl⟩

theorem clean (cdata : List Name) :
    ∀ markup ∈ Markup.ofDocument cdata document, markup.Clean := by
  intro markup member
  obtain (inLeading | inRoot) | inTrailing :
      (markup ∈ document.leading.map (Markup.comment ·.text) ∨
        markup ∈ Markup.ofElement cdata document.root) ∨
        markup ∈ document.trailing.map (Markup.comment ·.text) := by
    simpa [Markup.ofDocument, or_assoc] using member
  · obtain ⟨entry, listed, rfl⟩ := List.mem_map.mp inLeading
    exact (writes.leading entry listed).closed
  · exact writes.root.clean Naming.sound_initial markup inRoot
  · obtain ⟨entry, listed, rfl⟩ := List.mem_map.mp inTrailing
    exact (writes.trailing entry listed).closed

theorem textsApart (cdata : List Name) :
    TextsApart false (Markup.ofDocument cdata document) ∧
      endsInText false (Markup.ofDocument cdata document) = false := by
  obtain ⟨apartLeading, endsLeading⟩ := textsApart_comments document.leading false
  obtain ⟨apartTrailing, endsTrailing⟩ := textsApart_comments document.trailing false
  have endsElement : endsInText false (Markup.ofElement cdata document.root) = false :=
    (writes.root.textsApart false).2
  unfold Markup.ofDocument
  simp only [textsApart_append, endsInText_append, endsLeading, endsElement]
  exact ⟨⟨⟨apartLeading, (writes.root.textsApart false).1⟩, apartTrailing⟩, endsTrailing⟩

/-- The tokens of the document make the reader hold all of it. -/
theorem yields_document {options : WriteOptions} {tokens ending : List Token} (file : Nat)
    (spaced : Spaced false (options.head ++ Markup.ofDocument options.cdata document) tokens)
    (isLead : IsLead false ending) :
    (Reader.initial file).Yields (tokens ++ ending) fun result => ∃ read,
      result.document = .ok read ∧ ReadBack document settledTag settledInner read := by
  unfold Markup.ofDocument at spaced
  obtain ⟨head, others, rfl, spacedHead, spacedDocument⟩ := spaced.split
  obtain ⟨beside, trailing, rfl, spacedBeside, spacedTrailing⟩ := spacedDocument.split
  obtain ⟨leading, root, rfl, spacedLeading, spacedRoot⟩ := spacedBeside.split
  simp only [List.append_assoc]
  refine (Reader.yields_head rfl spacedHead).append fun result same => ?_
  subst same
  refine (Reader.yields_comments rfl writes.leading spacedLeading).append fun result reached => ?_
  obtain ⟨readLeading, sameLeading, rfl⟩ := reached
  rw [Reader.attachAll_leading rfl rfl]
  refine (writes.yields_root spacedRoot rfl rfl).append fun result reached => ?_
  obtain ⟨child, rfl, sameRoot⟩ := reached
  have path : (({ Reader.initial file with leading := readLeading.reverse ++ [] } :
      Reader).attach (.element child)).path = [] := rfl
  refine (Reader.yields_comments path writes.trailing spacedTrailing).append fun result reached => ?_
  obtain ⟨readTrailing, sameTrailing, rfl⟩ := reached
  rw [Reader.attachAll_trailing path rfl]
  refine (Reader.yields_outside isLead rfl).mono fun result same => ?_
  subst same
  refine ⟨⟨readLeading, child, readTrailing⟩, ?_, sameLeading, sameRoot, sameTrailing⟩
  simp [Reader.document, Reader.attach, Reader.initial]

/-- A written document is read without an error. -/
theorem parse_write (file : Nat) (options : WriteOptions) :
    ∃ read, parse file (document.write options) = .ok read ∧
      ReadBack document settledTag settledInner read := by
  obtain ⟨first, rest, markup, kind⟩ := writes.ofDocument_eq_cons options.cdata
  have clean := writes.clean options.cdata
  obtain ⟨apart, ends⟩ := writes.textsApart options.cdata
  rw [markup] at clean apart ends
  obtain ⟨tokens, ending, spaced, blank, lexed, faultless⟩ :=
    tokens_writeMarkup options kind clean apart ends
  have unmarked : ∀ others, writeMarkup options (first :: rest) ≠ '\ufeff' :: others :=
    writeMarkup_ne_mark options kind
  rw [← markup] at spaced lexed faultless unmarked
  have isLead : IsLead false (Lexer.textTokens ending) := by
    unfold Lexer.textTokens
    split
    · exact .inl rfl
    · exact .inr ⟨rfl, ending, blank, rfl⟩
  obtain ⟨result, run, read, closed, same⟩ :=
    writes.yields_document file spaced isLead _ lexed
  -- No byte order mark is taken off what has been written.
  have whole : withoutMark (document.write options).toList =
      writeMarkup options (Markup.ofDocument options.cdata document) := by
    rw [Document.write, String.toList_ofList]
    unfold withoutMark
    split
    · rename_i others same
      exact absurd same (unmarked others)
    · rfl
  refine ⟨read, ?_, same⟩
  unfold parse Xml.read
  simp only [whole, run, faultless, closed]

end DocumentWrites

theorem Content.isEmpty_unplaced (content : Content) :
    content.unplaced.isEmpty = content.isEmpty := by
  cases content <;> rfl

theorem ofContent_unplaced (cdata : List Name) (content : Content) :
    ∀ naming, Markup.ofContent cdata naming content.unplaced =
      Markup.ofContent cdata naming content := by
  induction content with
  | empty => exact fun _ => rfl
  | comment entry rest ih =>
    intro naming
    simp only [Content.unplaced, Markup.ofContent, ih]
    rfl
  | element tag inner rest ihInner ihRest =>
    intro naming
    have placeless : naming.tag tag.unplaced = naming.tag tag := rfl
    obtain ⟨within, name, attributes, written⟩ :
        ∃ within name attributes, naming.tag tag = (within, name, attributes) := ⟨_, _, _, rfl⟩
    have markup : tag.unplaced.markup cdata name attributes inner.unplaced =
        tag.markup cdata name attributes inner := by
      unfold Tag.markup
      rw [inner.isEmpty_unplaced]
      rfl
    rw [Content.unplaced, ofContent_element (placeless.trans written), ofContent_element written,
      ihInner, ihRest, markup]

theorem map_text_of_unplaced {first second : List Comment}
    (same : second.map Comment.unplaced = first.map Comment.unplaced) :
    second.map (Markup.comment ·.text) = first.map (Markup.comment ·.text) := by
  have texts := congrArg (List.map fun entry : Comment => Markup.comment entry.text) same
  simpa [Function.comp_def, Comment.unplaced] using texts

/-- What is read differs from what was written by the normalization of its texts and values only. -/
theorem DocumentWrites.same_reread (writes : DocumentWrites document after settledTag settledInner)
    {read : Document} (readBack : ReadBack document settledTag settledInner read) :
    document.reread.same read = true := by
  have settled := writes.root.bare_eq
  simp only [Content.bare, Content.element.injEq, and_true] at settled
  obtain ⟨tags, contents⟩ := settled
  have root : read.root.bare = document.root.reread.bare := by
    obtain ⟨readTag, readInner⟩ := Element.mk.inj readBack.root
    have readTagBare : read.root.tag.bare = settledTag.reread.bare := by
      rw [← readTag]
      rfl
    have readInnerBare : read.root.content.bare = settledInner.reread.bare := by
      rw [← readInner, Content.bare_unplaced]
    rw [Element.bare, readTagBare, readInnerBare, Tag.bare_reread, Content.bare_reread, tags, contents,
      ← Tag.bare_reread, ← Content.bare_reread]
    rfl
  rw [Document.same_iff, Document.bare, Document.bare, root, readBack.leading, readBack.trailing]
  rfl

/-- A document that settles: it can be written, and it is read as it has settled. -/
structure DocumentSettles (document : Document) (after : Naming) (settledTag : Tag)
    (settledInner : Content) : Prop
    extends DocumentWrites document after settledTag settledInner where
  stable : document.Stable

namespace DocumentSettles

variable (settles : DocumentSettles document after settledTag settledInner)
include settles

theorem reread_eq_self : settledTag.reread = settledTag ∧ settledInner.reread = settledInner := by
  have settled := settles.root.bare_eq
  simp only [Content.bare, Content.element.injEq, and_true] at settled
  obtain ⟨tags, contents⟩ := settled
  have stable := settles.stable
  rw [Document.Stable, Element.tags, List.forall_mem_cons] at stable
  constructor
  · rw [Tag.reread_eq_self_iff, ← Tag.stable_bare, tags, Tag.stable_bare]
    exact stable.1
  · rw [Content.reread_eq_self_iff, ← Content.stable_bare, contents, Content.stable_bare]
    exact stable.2

theorem write_of_readBack {read : Document}
    (readBack : ReadBack document settledTag settledInner read) (options : WriteOptions) :
    read.write options = document.write options := by
  obtain ⟨readTag, readInner⟩ := Element.mk.inj readBack.root
  obtain ⟨stableTag, stableInner⟩ := settles.reread_eq_self
  have root : Markup.ofElement options.cdata read.root =
      Markup.ofElement options.cdata document.root := by
    have rewritten : (Markup.ofContent options.cdata Naming.initial
        (.element settledTag settledInner .empty)).2 = Markup.ofElement options.cdata document.root :=
      (settles.root.rewritten rfl).1
    have placeless := ofContent_unplaced options.cdata
      (.element read.root.tag read.root.content .empty) Naming.initial
    rw [← rewritten, ← stableTag, ← stableInner, ← readTag, ← readInner]
    exact congrArg Prod.snd placeless.symm
  unfold Document.write Markup.ofDocument
  rw [root, map_text_of_unplaced readBack.leading, map_text_of_unplaced readBack.trailing]

/-- A document that settles survives writing and reading, and is then written the same. -/
theorem roundTrip (file : Nat) (options : WriteOptions) :
    ∃ read, parse file (document.write options) = .ok read ∧ document.same read ∧
      read.write options = document.write options := by
  obtain ⟨read, parsed, readBack⟩ := settles.parse_write file options
  have same := Document.same_reread_iff (settles.same_reread readBack)
  exact ⟨read, parsed, same.mpr settles.stable, settles.write_of_readBack readBack options⟩

end DocumentSettles
end KeyholeMarkup.Xml

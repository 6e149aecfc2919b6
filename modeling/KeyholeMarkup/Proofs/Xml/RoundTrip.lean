import KeyholeMarkup.Proofs.Xml.BuiltNaming
import KeyholeMarkup.Proofs.Xml.ReadBack

/-! The round trip of built documents. Writing gives markup that is read as the document, whatever
declarations had to be added and however the markup is laid out. -/
namespace KeyholeMarkup.Xml

section
variable {attributes settled : List Attribute}
  (same : List.Forall₂ (fun entry kept => kept.name = entry.name ∧ kept.value = entry.value)
    attributes settled)
include same

theorem sameAttributes_of_forall₂ : sameAttributes attributes settled = true := by
  induction same with
  | nil => rfl
  | cons head _ ih => simp [sameAttributes, Attribute.same, head, ih]

theorem map_name_of_forall₂ : settled.map (·.name) = attributes.map (·.name) := by
  induction same with
  | nil => rfl
  | cons head _ ih => rw [List.map_cons, List.map_cons, head.1, ih]

theorem fits_of_forall₂ (writable : ∀ entry ∈ attributes, entry.Writable) :
    ∀ kept ∈ settled, kept.Fits := by
  induction same with
  | nil => simp
  | @cons entry kept _ _ head _ ih =>
    intro other member
    obtain rfl | later := List.mem_cons.mp member
    · have entryWritable := writable entry (by simp)
      exact ⟨head.1 ▸ entryWritable.localName.isNamePart, head.1 ▸ entryWritable.own⟩
    · exact ih (fun entry member => writable entry (by simp [member])) other later

end

theorem Naming.Orderly.tagged {naming : Naming} (orderly : naming.Orderly) {tag : Tag}
    {inner : Content} (made : tag.Made) (writable : tag.Writable inner) :
    ∃ after settled, Tagged naming tag after settled ∧ after.Orderly ∧
      settled.text = tag.text := by
  have entered := orderly.enter
  obtain ⟨middle, nsPrefix, element, withinMiddle, named⟩ :=
    entered.elementName made rfl writable.uri
  obtain ⟨after, settled, attributes, within, keeps, same, all⟩ :=
    withinMiddle.attributeNames made.attributes fun entry member =>
      (writable.attributes entry member).uri
  have fits := fits_of_forall₂ same writable.attributes
  -- What the writer has declared by the end of the tag are the declarations that are read back.
  refine ⟨after, ⟨tag.name, nsPrefix, after.here, settled, tag.text, none⟩, ?_, within.orderly, rfl⟩
  exact {
    written := by
      rw [Naming.tag, made.declarations]
      simp only [element, attributes]
      rfl
    frames := within.frames
    same := by simp [Tag.same, sameAttributes_of_forall₂ same]
    unplaced := rfl
    sound := fun declaration member => within.orderly.sound declaration (Naming.here_subset member)
    named := named.keep keeps
    attributes := all
    localName := writable.localName.isNamePart
    fits
    prefixes := within.prefixes
    names := by
      have distinct := writable.distinct
      rw [← map_name_of_forall₂ same, List.Nodup, List.pairwise_map] at distinct
      rw [List.Nodup, List.pairwise_map]
      exact distinct.imp_of_mem fun left right apart written =>
        apart (within.orderly.sound.name_of_written (all _ left) (all _ right) (fits _ left)
          (fits _ right) written) }

/-- A made content that can be written settles. -/
theorem exists_settles {content : Content} (made : content.Every (fun tag _ => tag.Made) fun _ => True)
    (writable : content.Every Tag.Writable Comment.Fits) :
    ∀ {naming : Naming}, naming.Orderly →
      ∃ after settled, Settles naming content after settled ∧ after.Orderly := by
  induction content with
  | empty => exact fun {naming} orderly => ⟨naming, .empty, .empty naming, orderly⟩
  | comment entry rest ih =>
    intro naming orderly
    obtain ⟨after, settled, settles, orderlyAfter⟩ := ih made.2 writable.2 orderly
    exact ⟨after, _, .comment writable.1 settles, orderlyAfter⟩
  | element tag inner rest ihInner ihRest =>
    intro naming orderly
    obtain ⟨within, settledTag, tagged, orderlyWithin, text⟩ := orderly.tagged made.1 writable.1
    obtain ⟨between, settledInner, settlesInner, orderlyBetween⟩ :=
      ihInner made.2.1 writable.2.1 orderlyWithin
    obtain ⟨after, settled, settlesRest, orderlyAfter⟩ :=
      ihRest made.2.2 writable.2.2 orderlyBetween.leave
    -- A content is as empty as the one that it is read back as.
    have fits : settledTag.TextKept settledInner := by
      intro kept given
      rw [text] at given
      obtain ⟨nonempty, -, visible⟩ := writable.1.text kept given
      refine ⟨nonempty, fun filled => visible ?_⟩
      rintro rfl
      cases settlesInner
      exact filled rfl
    exact ⟨after, _, .element tagged fits settlesInner settlesRest, orderlyAfter⟩

theorem Tag.Writable.stable {tag : Tag} {inner : Content} (writable : tag.Writable inner) :
    tag.Stable :=
  ⟨fun text given => (writable.text text given).2.1,
    fun entry member => (writable.attributes entry member).value⟩

theorem Content.Every.stable {content : Content}
    (writable : content.Every Tag.Writable Comment.Fits) : ∀ tag ∈ content.tags, tag.Stable := by
  induction content with
  | empty => simp [tags]
  | comment entry rest ih => exact ih writable.2
  | element tag inner rest ihInner ihRest =>
    simp only [tags, List.cons_append, List.forall_mem_cons, List.forall_mem_append]
    exact ⟨writable.1.stable, ihInner writable.2.1, ihRest writable.2.2⟩

theorem Document.Writable.stable {document : Document} (writable : document.Writable) :
    document.Stable :=
  List.forall_mem_cons.mpr ⟨writable.tag.stable, writable.content.stable⟩

theorem Document.Built.settles {document : Document} (built : document.Built)
    (writable : document.Writable) :
    ∃ after tag inner, DocumentSettles document after tag inner := by
  obtain ⟨madeTag, madeContent⟩ := built.root_built.made_tags
  have made : Content.Every (fun tag _ => tag.Made) (fun _ => True)
      (.element document.root.tag document.root.content .empty) := ⟨madeTag, madeContent, trivial⟩
  have root : Content.Every Tag.Writable Comment.Fits
      (.element document.root.tag document.root.content .empty) :=
    ⟨writable.tag, writable.content, trivial⟩
  obtain ⟨after, settled, settles, -⟩ := exists_settles made root Naming.orderly_initial
  cases settles with
  | element tagged fits settlesInner settlesRest =>
    cases settlesRest
    exact ⟨_, _, _, ⟨writable.leading, .element tagged fits settlesInner (.empty _),
      writable.trailing⟩, writable.stable⟩

/-- A built document that can be written at all is read back as itself, and what has been read is
written the same, for all options. -/
theorem parse_write_of_built {document : Document} (built : document.Built)
    (writable : document.Writable) (file : Nat) (options : WriteOptions) :
    ∃ read, parse file (document.write options) = .ok read ∧ document.same read = true ∧
      read.write options = document.write options := by
  obtain ⟨after, tag, inner, settles⟩ := built.settles writable
  exact settles.roundTrip file options

/-- A list in a namespace, around an item without one: the item takes the default namespace back,
and a prefix is made up for the attribute. -/
def listWithItem : Document :=
  (Document.ofRoot
    (((Maker.element ⟨some "urn:list", none⟩ "list").withAttributeNamed
      (Name.within (some "urn:mark") "id") "1 < 2").withChild
        ((Maker.element ⟨none, none⟩ "item").withText "a]]>b"))).withLeading "made"

theorem built_listWithItem : listWithItem.Built :=
  .withLeading _ (.ofRoot (.withChild (.withAttributeNamed _ _ _ (.made _ (.inl rfl)))
    (.withText _ (.made _ (.inl rfl)))))

theorem listWithItem_eq : listWithItem =
    ⟨[⟨"made", none⟩], ⟨⟨⟨some "urn:list", "list"⟩, none, [],
      [⟨⟨some "urn:mark", "id"⟩, none, "1 < 2"⟩], none, none⟩,
      .element ⟨⟨none, "item"⟩, none, [], [], some "a]]>b", none⟩ .empty .empty⟩, []⟩ := by
  decide

theorem writable_listWithItem : listWithItem.Writable := by
  rw [listWithItem_eq]
  have list : IsNcName "list" := by decide
  have item : IsNcName "item" := by decide
  have id : IsNcName "id" := by decide
  refine ⟨?_, ⟨list, ?_, ?_, by decide, by simp [Tag.TextFits]⟩,
    ⟨⟨item, by simp, by simp, by decide, ?_⟩, trivial, trivial⟩, by simp⟩
  · intro entry member
    rw [List.mem_singleton.mp member]
    exact ⟨by decide, by decide⟩
  · rintro _ ⟨⟩
    exact ⟨by decide, by decide, by decide⟩
  · intro entry member
    rw [List.mem_singleton.mp member]
    refine ⟨id, by decide, ?_, by decide⟩
    rintro _ ⟨⟩
    exact ⟨by decide, by decide⟩
  · rintro _ ⟨⟩
    exact ⟨by decide, by decide, by simp⟩

theorem parse_write_of_built_listWithItem :
    listWithItem.Built ∧ listWithItem.Writable ∧
      ∃ read, parse 0 (listWithItem.write ⟨some 2, true, [.plain "item"]⟩) = .ok read ∧
        listWithItem.same read = true ∧
        read.write ⟨some 2, true, [.plain "item"]⟩ =
          listWithItem.write ⟨some 2, true, [.plain "item"]⟩ :=
  ⟨built_listWithItem, writable_listWithItem,
    parse_write_of_built built_listWithItem writable_listWithItem 0 _⟩

end KeyholeMarkup.Xml

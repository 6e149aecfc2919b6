import KeyholeMarkup.Proofs.Xml.Reference
import KeyholeMarkup.Proofs.Xml.Tree
import KeyholeMarkup.Text.Blank

/-! Text that is written and read once more. Line ends in text are written as they are, and so are
line ends and tabs in attribute values; reading normalizes them. -/
namespace KeyholeMarkup.Xml
open KeyholeMarkup.Text

def rereadText (text : String) : String := String.ofList (normalizeLineEnds text.toList)

def Attribute.reread (entry : Attribute) : Attribute :=
  { entry with value := String.ofList (normalizeValue entry.value.toList) }

def Tag.reread (tag : Tag) : Tag :=
  { tag with attributes := tag.attributes.map Attribute.reread, text := tag.text.map rereadText }

def Content.reread : Content → Content
  | .empty => .empty
  | .comment entry rest => .comment entry rest.reread
  | .element tag inner rest => .element tag.reread inner.reread rest.reread

def Element.reread (element : Element) : Element := ⟨element.tag.reread, element.content.reread⟩

/-- A document as it is once it has been written and read. -/
def Document.reread (document : Document) : Document :=
  { document with root := document.root.reread }

/-- Text without carriage returns, and attribute values without line ends and tabs. -/
structure Tag.Stable (tag : Tag) : Prop where
  text : ∀ text, tag.text = some text → '\r' ∉ text.toList
  values : ∀ entry ∈ tag.attributes,
    '\r' ∉ entry.value.toList ∧ '\n' ∉ entry.value.toList ∧ '\t' ∉ entry.value.toList

def Document.Stable (document : Document) : Prop := ∀ tag ∈ document.root.tags, tag.Stable

theorem rereadText_eq_self_iff {text : String} : rereadText text = text ↔ '\r' ∉ text.toList := by
  rw [← normalizeLineEnds_eq_self_iff, rereadText, ← String.toList_inj, String.toList_ofList]

theorem rereadText_ne_empty {text : String} (nonempty : text ≠ "") : rereadText text ≠ "" := by
  intro same
  apply nonempty
  rw [rereadText, ← String.toList_inj, String.toList_ofList] at same
  rw [← String.toList_inj]
  revert same
  generalize text.toList = characters
  fun_cases normalizeLineEnds characters <;> simp

theorem allBlank_normalizeLineEnds (text : List Char) :
    allBlank (normalizeLineEnds text) = allBlank text := by
  have turn : isBlank '\r' = true := by decide
  have feed : isBlank '\n' = true := by decide
  simp only [allBlank]
  fun_induction normalizeLineEnds text with
  | case1 rest ih => simp [turn, feed, ih]
  | case2 rest _ ih => simp [turn, feed, ih]
  | case3 c rest _ _ ih => simp [ih]
  | case4 => rfl

theorem Attribute.reread_eq_self_iff {entry : Attribute} : entry.reread = entry ↔
    '\r' ∉ entry.value.toList ∧ '\n' ∉ entry.value.toList ∧ '\t' ∉ entry.value.toList := by
  rw [← normalizeValue_eq_self_iff, ← String.ofList_inj, String.ofList_toList]
  constructor
  · intro same
    exact congrArg Attribute.value same
  · intro same
    rw [reread, same]

theorem map_eq_self_iff {α : Type} {change : α → α} {items : List α} :
    items.map change = items ↔ ∀ item ∈ items, change item = item := by
  induction items with
  | nil => simp
  | cons item rest ih => simp [ih]

theorem Tag.reread_eq_self_iff {tag : Tag} : tag.reread = tag ↔ tag.Stable := by
  constructor
  · intro same
    refine ⟨?_, ?_⟩
    · intro text given
      have kept := congrArg Tag.text same
      rw [reread, given, Option.map_some, Option.some.injEq] at kept
      exact rereadText_eq_self_iff.mp kept
    · intro entry member
      exact Attribute.reread_eq_self_iff.mp
        (map_eq_self_iff.mp (congrArg Tag.attributes same) entry member)
  · rintro ⟨text, values⟩
    have attributes : tag.attributes.map Attribute.reread = tag.attributes :=
      map_eq_self_iff.mpr fun entry member => Attribute.reread_eq_self_iff.mpr (values entry member)
    have kept : tag.text.map rereadText = tag.text := by
      cases given : tag.text with
      | none => rfl
      | some characters => rw [Option.map_some, rereadText_eq_self_iff.mpr (text characters given)]
    rw [reread, attributes, kept]

theorem Content.reread_eq_self_iff {content : Content} :
    content.reread = content ↔ ∀ tag ∈ content.tags, tag.Stable := by
  induction content with
  | empty => simp [reread, tags]
  | comment entry rest ih => simp [reread, tags, ih]
  | element tag inner rest ihInner ihRest =>
    simp only [reread, tags, element.injEq, ihInner, ihRest, Tag.reread_eq_self_iff,
      List.cons_append, List.forall_mem_cons, List.forall_mem_append]

theorem Content.reread_eq_empty_iff {content : Content} : content.reread = .empty ↔ content = .empty := by
  cases content <;> simp [reread]

theorem Document.reread_eq_self_iff {document : Document} :
    document.reread = document ↔ document.Stable := by
  obtain ⟨leading, ⟨tag, content⟩, trailing⟩ := document
  simp only [reread, Element.reread, Stable, Element.tags, mk.injEq, Element.mk.injEq, true_and,
    and_true, Tag.reread_eq_self_iff, Content.reread_eq_self_iff, List.forall_mem_cons]

end KeyholeMarkup.Xml

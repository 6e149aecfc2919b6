import KeyholeMarkup.Geometry.Polygon
import KeyholeMarkup.Proofs.Xml.Elements
import KeyholeMarkup.Xml.Build
import KeyholeMarkup.Xml.Markup
import Mathlib.Data.List.Basic
import Mathlib.Data.List.Forall2

/-! Polygons as text and back. No tuple holds a comma and no ring a parenthesis, so that the text of a
polygon can be split into its rings and these into their tuples, whichever of them are empty. -/
namespace KeyholeMarkup.Geometry
open KeyholeMarkup.Text KeyholeMarkup.Xml

/-- The characters of numbers, the commas between them and the blanks between tuples. -/
def isCoordinateChar (c : Char) : Bool := c.isDigit || "+-.eE,".toList.contains c || isBlank c

/-- The coordinates of a document are numbers with commas and blanks between them. -/
def PlainCoordinates (document : Document) : Prop :=
  ∀ element ∈ document.root.allElements, element.name = kmlName "coordinates" →
    (element.text.getD "").toList.all isCoordinateChar = true

instance (document : Document) : Decidable (PlainCoordinates document) :=
  inferInstanceAs (Decidable (∀ element ∈ document.root.allElements, _ → _))

/-- Splits a text at each place of a separator, from the left. -/
def splitAtEach (separator : List Char) : List Char → List (List Char)
  | [] => [[]]
  | c :: rest =>
    if separator.isPrefixOf (c :: rest) then
      [] :: splitAtEach separator (rest.drop (separator.length - 1))
    else prepend c (splitAtEach separator rest)
termination_by text => text.length
decreasing_by
  · rw [List.length_drop, List.length_cons]
    omega
  · exact Nat.lt_succ_self _

/-- Reads the rings of a polygon, each as a list of tuples. -/
def readPolygon? (text : String) : Option (List (List (List Char))) := do
  let inside ← "POLYGON ((".toList.isPrefixOf? text.toList
  let rings ← "))".toList.isSuffixOf? inside
  return (splitAtEach "), (".toList rings).map (splitAtEach ", ".toList)

/-- The coordinates of a boundary: those of its first ring. -/
def coordinates? (boundary : Element) : Option Element :=
  (kmlChildren boundary "LinearRing").head?.bind fun ring => (kmlChildren ring "coordinates").head?

/-- A polygon whose first outer boundary has coordinates. -/
def isOutlined (element : Element) : Bool :=
  element.name == kmlName "Polygon" &&
    ((kmlChildren element "outerBoundaryIs").head?.bind coordinates?).isSome

/-- The coordinates of the first outer boundary and of all inner boundaries. -/
def outlines (polygon : Element) : List Element :=
  ((kmlChildren polygon "outerBoundaryIs").take 1 ++ kmlChildren polygon "innerBoundaryIs").filterMap
    coordinates?

/-- What the tuples of a ring are read as: without any there is an empty one. -/
def filled : List (List Char) → List (List Char)
  | [] => [[]]
  | tuples => tuples

/-- The words of some coordinates, with blanks for commas. -/
def spaced (coordinates : Element) : List (List Char) :=
  (words (coordinates.text.getD "").toList).map fun word => word.map fun c => if c = ',' then ' ' else c

section Splitting

variable {mark : Char} {more : List Char}

theorem splitAtEach_append {piece : List Char} (absent : mark ∉ piece) (rest : List Char) :
    splitAtEach (mark :: more) (piece ++ mark :: more ++ rest) =
      piece :: splitAtEach (mark :: more) rest := by
  induction piece with
  | nil => simp [splitAtEach]
  | cons c piece ih =>
    obtain ⟨other, later⟩ := not_or.mp (mt List.mem_cons.mpr absent)
    rw [List.cons_append, List.cons_append, splitAtEach, ih later]
    simp [other, prepend]

theorem splitAtEach_of_not_mem {piece : List Char} (absent : mark ∉ piece) :
    splitAtEach (mark :: more) piece = [piece] := by
  induction piece with
  | nil => rw [splitAtEach]
  | cons c piece ih =>
    obtain ⟨other, later⟩ := not_or.mp (mt List.mem_cons.mpr absent)
    rw [splitAtEach, ih later]
    simp [other, prepend]

/-- Parts without the first character of a separator are found again in their joined text. -/
theorem splitAtEach_intercalate {parts : List (List Char)} (nonempty : parts ≠ [])
    (absent : ∀ part ∈ parts, mark ∉ part) :
    splitAtEach (mark :: more) ((mark :: more).intercalate parts) = parts := by
  induction parts with
  | nil => exact absurd rfl nonempty
  | cons part parts ih =>
    obtain ⟨own, later⟩ := List.forall_mem_cons.mp absent
    cases parts with
    | nil => rw [List.intercalate_singleton, splitAtEach_of_not_mem own]
    | cons next parts =>
      rw [List.intercalate_cons_cons, splitAtEach_append own, ih (List.cons_ne_nil _ _) later]

theorem mem_intercalate {separator : List Char} {parts : List (List Char)} {c : Char}
    (member : c ∈ separator.intercalate parts) : c ∈ separator ∨ ∃ part ∈ parts, c ∈ part := by
  induction parts with
  | nil => cases member
  | cons part parts ih =>
    cases parts with
    | nil =>
      rw [List.intercalate_singleton] at member
      exact .inr ⟨part, List.mem_cons_self, member⟩
    | cons next parts =>
      rw [List.intercalate_cons_cons] at member
      rcases List.mem_append.mp member with first | later
      · rcases List.mem_append.mp first with own | between
        · exact .inr ⟨part, List.mem_cons_self, own⟩
        · exact .inl between
      · refine (ih later).imp_right ?_
        rintro ⟨other, listed, inside⟩
        exact ⟨other, List.mem_cons_of_mem _ listed, inside⟩

end Splitting

section Rings

/-- What stands between the parentheses of a ring. -/
def ringText (ring : List (List Char)) : List Char := ", ".toList.intercalate ring

def enclosed (part : List Char) : List Char := '(' :: part ++ [')']

theorem toList_writeRing (ring : List (List Char)) : (writeRing ring).toList = enclosed (ringText ring) := by
  simp [writeRing, enclosed, ringText, String.toList_intercalate, Function.comp_def]

/-- A comma between parts in parentheses is a longer separator inside one pair of them. -/
theorem intercalate_enclosed {parts : List (List Char)} (nonempty : parts ≠ []) :
    ", ".toList.intercalate (parts.map enclosed) = enclosed ("), (".toList.intercalate parts) := by
  induction parts with
  | nil => exact absurd rfl nonempty
  | cons part parts ih =>
    cases parts with
    | nil => rw [List.map_singleton, List.intercalate_singleton, List.intercalate_singleton]
    | cons next parts =>
      have others := ih (List.cons_ne_nil _ _)
      rw [List.map_cons] at others
      rw [List.map_cons, List.map_cons, List.intercalate_cons_cons, List.intercalate_cons_cons, others]
      simp [enclosed]

theorem toList_writePolygon {rings : List (List (List Char))} (nonempty : rings ≠ []) :
    (writePolygon rings).toList =
      "POLYGON ((".toList ++ ("), (".toList.intercalate (rings.map ringText) ++ "))".toList) := by
  have written : (rings.map writeRing).map String.toList = (rings.map ringText).map enclosed := by
    rw [List.map_map, List.map_map]
    exact List.map_congr_left fun ring _ => toList_writeRing ring
  rw [writePolygon, String.toList_append, String.toList_append, String.toList_intercalate, written,
    intercalate_enclosed (mt List.map_eq_nil_iff.mp nonempty)]
  simp [enclosed]

/-- The tuples of a ring are read back where none holds a comma. -/
theorem splitAtEach_ringText {ring : List (List Char)} (plain : ∀ tuple ∈ ring, ',' ∉ tuple) :
    splitAtEach ", ".toList (ringText ring) = filled ring := by
  cases ring with
  | nil => exact splitAtEach_of_not_mem List.not_mem_nil
  | cons tuple ring => exact splitAtEach_intercalate (List.cons_ne_nil _ _) plain

/-- The rings of a polygon are read back where no tuple holds a comma or a closing parenthesis. -/
theorem readPolygon?_writePolygon {rings : List (List (List Char))} (nonempty : rings ≠ [])
    (plain : ∀ ring ∈ rings, ∀ tuple ∈ ring, ',' ∉ tuple ∧ ')' ∉ tuple) :
    readPolygon? (writePolygon rings) = some (rings.map filled) := by
  have closed : ∀ part ∈ rings.map ringText, ')' ∉ part := by
    rintro _ member inside
    obtain ⟨ring, listed, rfl⟩ := List.mem_map.mp member
    rcases mem_intercalate inside with between | ⟨tuple, member, own⟩
    · simp at between
    · exact (plain ring listed tuple member).2 own
  have begins := List.isPrefixOf?_eq_some_iff_append_eq.mpr (toList_writePolygon nonempty).symm
  have ends := List.isSuffixOf?_eq_some_iff_append_eq.mpr
    (Eq.refl ("), (".toList.intercalate (rings.map ringText) ++ "))".toList))
  have parts : splitAtEach "), (".toList ("), (".toList.intercalate (rings.map ringText)) =
      rings.map ringText :=
    splitAtEach_intercalate (mt List.map_eq_nil_iff.mp nonempty) closed
  rw [readPolygon?, begins, Option.bind_eq_bind, Option.bind_some, ends]
  refine congrArg some ((congrArg _ parts).trans ?_)
  rw [List.map_map]
  apply List.map_congr_left
  intro ring listed
  exact splitAtEach_ringText fun tuple member => (plain ring listed tuple member).1

end Rings

section Texts

theorem mem_of_mem_pieces {cut : Char → Bool} {text piece : List Char} {c : Char}
    (listed : piece ∈ pieces cut text) (inside : c ∈ piece) : c ∈ text := by
  induction text generalizing piece with
  | nil =>
    obtain rfl := List.mem_singleton.mp listed
    exact inside
  | cons first rest ih =>
    rw [pieces] at listed
    split at listed
    · rcases List.mem_cons.mp listed with rfl | later
      · cases inside
      · exact List.mem_cons_of_mem _ (ih later inside)
    · split at listed
      · obtain rfl := List.mem_singleton.mp listed
        obtain rfl := List.mem_singleton.mp inside
        exact List.mem_cons_self
      · rename_i piece' others found
        rcases List.mem_cons.mp listed with rfl | later
        · rcases List.mem_cons.mp inside with rfl | own
          · exact List.mem_cons_self
          · exact List.mem_cons_of_mem _ (ih (found ▸ List.mem_cons_self) own)
        · exact List.mem_cons_of_mem _ (ih (found ▸ List.mem_cons_of_mem _ later) inside)

theorem substitute_eq_map (text : List Char) :
    substitute ',' [' '] text = text.map fun c => if c = ',' then ' ' else c := by
  induction text with
  | nil => rfl
  | cons c rest ih =>
    rw [substitute, List.flatMap_cons, List.map_cons, ← ih]
    split <;> rfl

theorem tuples_eq (coordinates : Element) :
    tuples (coordinates.text.getD "").toList = spaced coordinates :=
  List.map_congr_left fun word _ => substitute_eq_map word

/-- A tuple has blanks in place of commas and is otherwise from the text. -/
theorem plain_of_mem_spaced {coordinates : Element} {tuple : List Char}
    (closed : ')' ∉ (coordinates.text.getD "").toList) (listed : tuple ∈ spaced coordinates) :
    ',' ∉ tuple ∧ ')' ∉ tuple := by
  obtain ⟨word, member, rfl⟩ := List.mem_map.mp listed
  have found := (List.mem_filter.mp member).1
  constructor
  · intro comma
    obtain ⟨c, -, same⟩ := List.mem_map.mp comma
    split at same
    · cases same
    · contradiction
  · intro parenthesis
    obtain ⟨c, inside, same⟩ := List.mem_map.mp parenthesis
    split at same
    · cases same
    · exact closed (same ▸ mem_of_mem_pieces found inside)

end Texts

section Polygons

theorem ring?_eq (boundary : Element) : ring? boundary = (coordinates? boundary).map spaced := by
  rw [ring?, coordinates?]
  cases (kmlChildren boundary "LinearRing").head? with
  | none => rfl
  | some ring =>
    simp only [Option.bind_eq_bind, Option.bind_some, tuples_eq, Option.pure_def]
    cases (kmlChildren ring "coordinates").head? <;> rfl

theorem rings?_eq (polygon : Element) : rings? polygon =
    ((kmlChildren polygon "outerBoundaryIs").head?.bind coordinates?).map fun _ =>
      (outlines polygon).map spaced := by
  have inner : (kmlChildren polygon "innerBoundaryIs").filterMap ring? =
      ((kmlChildren polygon "innerBoundaryIs").filterMap coordinates?).map spaced := by
    rw [List.map_filterMap]
    exact congrArg (List.filterMap · _) (funext ring?_eq)
  rw [rings?, inner, outlines, List.filterMap_append]
  cases kmlChildren polygon "outerBoundaryIs" with
  | nil => rfl
  | cons outer others =>
    simp only [List.head?_cons, Option.bind_some, ring?_eq, List.take_succ_cons, List.take_zero,
      List.filterMap_cons, List.filterMap_nil]
    cases coordinates? outer <;> rfl

theorem outlines_ne_nil {polygon : Element}
    (outlined : ((kmlChildren polygon "outerBoundaryIs").head?.bind coordinates?).isSome = true) :
    outlines polygon ≠ [] := by
  obtain ⟨coordinates, found⟩ := Option.isSome_iff_exists.mp outlined
  obtain ⟨outer, first, within⟩ := Option.bind_eq_some_iff.mp found
  apply List.ne_nil_of_mem (a := coordinates)
  apply List.mem_filterMap.mpr
  refine ⟨outer, List.mem_append_left _ ?_, within⟩
  obtain ⟨others, listed⟩ := List.head?_eq_some_iff.mp first
  rw [listed]
  exact List.mem_cons_self

theorem mem_kmlChildren {element child : Element} {localName : String}
    (listed : child ∈ kmlChildren element localName) :
    child ∈ element.allElements ∧ child.name = kmlName localName := by
  obtain ⟨member, named⟩ := List.mem_filter.mp listed
  exact ⟨List.mem_cons_of_mem _ (element.content.elements_subset member), eq_of_beq named⟩

/-- The coordinates of a polygon are elements inside it. -/
theorem mem_outlines {polygon coordinates : Element} (listed : coordinates ∈ outlines polygon) :
    coordinates ∈ polygon.allElements ∧ coordinates.name = kmlName "coordinates" := by
  obtain ⟨boundary, member, found⟩ := List.mem_filterMap.mp listed
  obtain ⟨ring, first, found⟩ := Option.bind_eq_some_iff.mp found
  obtain ⟨inRing, named⟩ := mem_kmlChildren (List.mem_of_mem_head? found)
  have inBoundary := (mem_kmlChildren (List.mem_of_mem_head? first)).1
  have inPolygon : boundary ∈ polygon.allElements := by
    rcases List.mem_append.mp member with outer | inner
    · exact (mem_kmlChildren (List.mem_of_mem_take outer)).1
    · exact (mem_kmlChildren inner).1
  have inside := Element.allElements_subset inPolygon (Element.allElements_subset inBoundary inRing)
  exact ⟨inside, named⟩

def polygonText? (element : Element) : Option String :=
  if element.name = kmlName "Polygon" then (rings? element).map writePolygon else none

theorem polygons_eq (document : Document) :
    polygons document = document.root.allElements.filterMap polygonText? := by
  rw [polygons, ← document.filterMap_events, List.filterMap_filterMap]
  apply congrArg (List.filterMap · document.events)
  funext event
  cases event <;> rfl

def outlineText (polygon : Element) : String := writePolygon ((outlines polygon).map spaced)

/-- Exactly the polygons with an outline have a text. -/
theorem polygonText?_eq (element : Element) :
    polygonText? element = if isOutlined element then some (outlineText element) else none := by
  rw [polygonText?, rings?_eq, isOutlined, outlineText]
  by_cases named : element.name = kmlName "Polygon"
  · cases found : (kmlChildren element "outerBoundaryIs").head?.bind coordinates? <;> simp [named]
  · simp [named]

theorem polygons_eq_map (document : Document) :
    polygons document = (document.root.allElements.filter isOutlined).map outlineText :=
  calc polygons document
    _ = document.root.allElements.filterMap fun element =>
        if isOutlined element then some (outlineText element) else none := by
      rw [polygons_eq, funext polygonText?_eq]
    _ = (document.root.allElements.filter isOutlined).filterMap (some ∘ outlineText) :=
      List.filterMap_filter.symm
    _ = (document.root.allElements.filter isOutlined).map outlineText :=
      congrFun List.filterMap_eq_map _

/-- All tuples of a polygon are read back from its text, ring by ring. -/
def Keeps (polygon : Element) (text : String) : Prop :=
  readPolygon? text = some ((outlines polygon).map fun coordinates => filled (spaced coordinates))

theorem keeps_outlineText {polygon : Element} (outlined : isOutlined polygon = true)
    (closed : ∀ coordinates ∈ outlines polygon, ')' ∉ (coordinates.text.getD "").toList) :
    Keeps polygon (outlineText polygon) := by
  obtain ⟨-, outlined⟩ := Bool.and_eq_true_iff.mp outlined
  have nonempty : (outlines polygon).map spaced ≠ [] :=
    mt List.map_eq_nil_iff.mp (outlines_ne_nil outlined)
  rw [Keeps, outlineText, readPolygon?_writePolygon nonempty, List.map_map]
  · rfl
  · intro ring listed tuple member
    obtain ⟨coordinates, inside, rfl⟩ := List.mem_map.mp listed
    exact plain_of_mem_spaced (closed coordinates inside) member

/-- All polygons with an outline are listed in the order of the document, and from their texts all
tuples of their coordinates are read back. -/
theorem polygons_keep_coordinates (document : Document) (plain : PlainCoordinates document) :
    List.Forall₂ Keeps (document.root.allElements.filter isOutlined) (polygons document) := by
  rw [polygons_eq_map, List.forall₂_map_right_iff, List.forall₂_same]
  intro polygon listed
  obtain ⟨member, outlined⟩ := List.mem_filter.mp listed
  apply keeps_outlineText outlined
  intro coordinates inside parenthesis
  obtain ⟨within, named⟩ := mem_outlines inside
  have allowed := plain coordinates (Element.allElements_subset member within) named
  exact absurd (List.all_eq_true.mp allowed _ parenthesis) (by decide)

def ringOf (text : String) : Element :=
  (Maker.kml.element "LinearRing").withChild ((Maker.kml.element "coordinates").withText text)

/-- A polygon with another one inside. -/
def nestedPolygons : Document :=
  let inside := (Maker.kml.element "Polygon").withChild
    ((Maker.kml.element "outerBoundaryIs").withChild (ringOf ","))
  .ofRoot ((((Maker.kml.element "Polygon").withChild
    ((Maker.kml.element "outerBoundaryIs").withChild (ringOf "0,0,1 -1.5,2e3"))).withChild inside).withChild
      ((Maker.kml.element "innerBoundaryIs").withChild (ringOf "")))

theorem polygons_keep_coordinates_nested : PlainCoordinates nestedPolygons ∧
    polygons nestedPolygons = ["POLYGON ((0 0 1, -1.5 2e3), ())", "POLYGON (( ))"] ∧
    List.Forall₂ Keeps (nestedPolygons.root.allElements.filter isOutlined) (polygons nestedPolygons) := by
  have plain : PlainCoordinates nestedPolygons := by decide +kernel
  exact ⟨plain, by decide +kernel, polygons_keep_coordinates nestedPolygons plain⟩

/-- A polygon whose first outer boundary has coordinates in some ring, be it the first or not. -/
def hasOutline (element : Element) : Bool :=
  element.name == kmlName "Polygon" &&
    (kmlChildren element "outerBoundaryIs").head?.any fun boundary =>
      (kmlChildren boundary "LinearRing").any fun ring => (kmlChildren ring "coordinates").head?.isSome

/-- A polygon whose outer boundary has an empty ring before the one with coordinates. -/
def secondRing : Document :=
  .ofRoot ((Maker.kml.element "Polygon").withChild (((Maker.kml.element "outerBoundaryIs").withChild
    (Maker.kml.element "LinearRing")).withChild (ringOf "0,0 1,1")))

theorem polygons_secondRing : PlainCoordinates secondRing ∧
    secondRing.root.allElements.filter hasOutline = [secondRing.root] ∧ polygons secondRing = [] := by
  refine ⟨?_, ?_, ?_⟩ <;> decide +kernel

end Polygons

end KeyholeMarkup.Geometry

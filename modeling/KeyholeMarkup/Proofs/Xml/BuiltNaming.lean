import KeyholeMarkup.Proofs.Xml.Built
import Std.Data.String.ToNat

/-! The naming of built documents. A prefix is declared where it is needed and nowhere stands for
another namespace, so that names found once stay what they are further on in the tag. -/
namespace KeyholeMarkup.Xml

namespace Naming

theorem toList_madeUp (number : Nat) :
    (madeUp number).toList = 'n' :: 's' :: Nat.toDigits 10 number := by
  simp [madeUp]

theorem madeUp_inj {first second : Nat} (same : madeUp first = madeUp second) : first = second := by
  have digits := congrArg String.toList same
  rw [toList_madeUp, toList_madeUp] at digits
  refine Nat.repr_injective (String.toList_inj.mp ?_)
  simpa using digits

theorem isNamePart_madeUp (number : Nat) : IsNamePart (madeUp number) := by
  refine IsNcName.isNamePart ⟨'n', 's' :: Nat.toDigits 10 number, toList_madeUp number,
    by decide, fun c member => ?_⟩
  obtain rfl | digit := List.mem_cons.mp member
  · decide
  · have isDigit := Nat.isDigit_of_mem_toDigits (by decide) (by decide) digit
    have range : (0x30, 0x39) ∈ nameRanges := by decide
    simp only [Char.isDigit, Bool.and_eq_true, decide_eq_true_eq] at isDigit
    refine List.any_eq_true.mpr ⟨_, range, ?_⟩
    simp only [Bool.and_eq_true, decide_eq_true_eq]
    exact ⟨isDigit.1, isDigit.2⟩

/-- A prefix that is conventional for its namespace or has been made up. -/
def Chosen (generated : Nat) (bound uri : String) : Prop :=
  conventionalPrefix? uri = some bound ∧ uri ≠ xmlUri ∨
    ∃ number, number ≤ generated ∧ bound = madeUp number

theorem conventional_cases {bound uri : String} (conventional : conventionalPrefix? uri = some bound)
    (notXml : uri ≠ xmlUri) :
    bound = "kml" ∧ uri = kmlUri ∨ bound = "atom" ∧ uri = atomUri ∨ bound = "gx" ∧ uri = gxUri := by
  unfold conventionalPrefix? at conventional
  split at conventional
  · exact .inl ⟨(Option.some.inj conventional).symm, ‹_›⟩
  · split at conventional
    · exact .inr (.inl ⟨(Option.some.inj conventional).symm, ‹_›⟩)
    · split at conventional
      · exact .inr (.inr ⟨(Option.some.inj conventional).symm, ‹_›⟩)
      · contradiction

theorem madeUp_ne {number : Nat} {text : String} (other : ∀ rest, text.toList ≠ 'n' :: 's' :: rest) :
    text ≠ madeUp number := by
  rintro rfl
  exact other _ (toList_madeUp number)

theorem conventional_inj {bound first second : String}
    (left : conventionalPrefix? first = some bound) (leftNotXml : first ≠ xmlUri)
    (right : conventionalPrefix? second = some bound) (rightNotXml : second ≠ xmlUri) :
    first = second := by
  obtain ⟨rfl, rfl⟩ | ⟨rfl, rfl⟩ | ⟨rfl, rfl⟩ := conventional_cases left leftNotXml <;>
    obtain ⟨clash, rfl⟩ | ⟨clash, rfl⟩ | ⟨clash, rfl⟩ := conventional_cases right rightNotXml <;>
    first
      | rfl
      | exact absurd clash (by decide)

theorem conventional_ne_madeUp {bound uri : String}
    (conventional : conventionalPrefix? uri = some bound) (notXml : uri ≠ xmlUri) (number : Nat) :
    bound ≠ madeUp number := by
  obtain ⟨rfl, -⟩ | ⟨rfl, -⟩ | ⟨rfl, -⟩ := conventional_cases conventional notXml <;>
    exact madeUp_ne (by simp)

theorem Chosen.isNamePart {generated : Nat} {bound uri : String} (chosen : Chosen generated bound uri) :
    IsNamePart bound ∧ bound ≠ "xml" ∧ bound ≠ "xmlns" := by
  obtain ⟨conventional, notXml⟩ | ⟨number, -, rfl⟩ := chosen
  · have plain : ∀ text ∈ ["kml", "atom", "gx"],
        (text.toList ≠ [] ∧ text.toList.all isTagChar ∧ ':' ∉ text.toList) ∧
          text ≠ "xml" ∧ text ≠ "xmlns" := by decide
    have listed : bound ∈ ["kml", "atom", "gx"] := by
      obtain ⟨rfl, -⟩ | ⟨rfl, -⟩ | ⟨rfl, -⟩ := conventional_cases conventional notXml <;> simp
    obtain ⟨⟨nonempty, all, whole⟩, notXml, notXmlns⟩ := plain bound listed
    exact ⟨⟨⟨nonempty, List.all_eq_true.mp all⟩, whole⟩, notXml, notXmlns⟩
  · exact ⟨isNamePart_madeUp number, (madeUp_ne (by simp)).symm, (madeUp_ne (by simp)).symm⟩

/-- Declarations that do not contradict each other: every prefix is a chosen one and stands for one
namespace in all places. -/
structure Orderly (naming : Naming) : Prop where
  sound : naming.Sound
  chosen : ∀ declaration ∈ naming.declarations, ∀ bound, declaration.nsPrefix = some bound →
    declaration.uri ≠ "" ∧ Chosen naming.generated bound declaration.uri
  single : ∀ bound first second, ⟨some bound, first⟩ ∈ naming.declarations →
    ⟨some bound, second⟩ ∈ naming.declarations → first = second

variable {naming after : Naming} {outer : List (List Declaration)}

theorem orderly_initial : initial.Orderly := by
  have bare : initial.declarations = [] := rfl
  exact ⟨sound_initial, by simp [bare], by simp [bare]⟩

theorem Orderly.lookup? (orderly : naming.Orderly) {bound uri : String}
    (member : ⟨some bound, uri⟩ ∈ naming.declarations) : naming.lookup? (some bound) = some uri := by
  have nonempty := (orderly.chosen _ member bound rfl).1
  cases located : naming.declarations.find? (·.nsPrefix == some bound) with
  | none =>
    have absent := List.find?_eq_none.mp located _ member
    simp at absent
  | some found =>
    obtain ⟨nsPrefix, other⟩ := found
    have same : nsPrefix = some bound := by simpa using List.find?_some located
    subst same
    obtain rfl := orderly.single _ _ _ (List.mem_of_find?_eq_some located) member
    simp [Naming.lookup?, located, nonempty]

theorem Orderly.undeclared_next (orderly : naming.Orderly) :
    naming.Undeclared (madeUp (naming.generated + 1)) := by
  intro declaration member same
  obtain ⟨-, ⟨conventional, notXml⟩ | ⟨number, used, made⟩⟩ := orderly.chosen _ member _ same
  · exact conventional_ne_madeUp conventional notXml _ rfl
  · have number_eq := madeUp_inj made
    omega

theorem Orderly.freshNumber_eq (orderly : naming.Orderly) :
    naming.freshNumber = naming.generated + 1 := by
  have unbound := lookup?_of_undeclared orderly.undeclared_next
  have free : naming.isFree (madeUp (naming.generated + 1)) = true := by
    simp [isFree, unbound, not_isDeclaredHere orderly.undeclared_next]
  simp [freshNumber, List.range_succ_eq_map, free]

theorem declarations_eq {frame : List Declaration} (frames : naming.frames = frame :: outer) :
    naming.declarations = frame.reverse ++ outer.flatMap List.reverse := by
  simp [declarations, frames]

section
variable (frames : naming.frames = naming.here :: outer)
include frames

theorem declare_frames (nsPrefix : Option String) (uri : String) :
    (naming.declare nsPrefix uri).frames = (naming.here ++ [⟨nsPrefix, uri⟩]) :: outer := by
  rw [Naming.declare, frames]

theorem declare_declarations (nsPrefix : Option String) (uri : String) :
    (naming.declare nsPrefix uri).declarations = ⟨nsPrefix, uri⟩ :: naming.declarations := by
  rw [declarations_eq (declare_frames frames nsPrefix uri), declarations_eq frames]
  simp

theorem declare_generated (nsPrefix : Option String) (uri : String) :
    (naming.declare nsPrefix uri).generated = naming.generated := by
  rw [Naming.declare, frames]

theorem lookup?_declare (nsPrefix : Option String) (uri : String) (wanted : Option String) :
    (naming.declare nsPrefix uri).lookup? wanted =
      if nsPrefix = wanted then (some uri).filter (· ≠ "") else naming.lookup? wanted := by
  unfold Naming.lookup?
  rw [declare_declarations frames, List.find?_cons]
  split
  · rename_i same
    rw [if_pos (by simpa using same)]
    rfl
  · rename_i other
    rw [if_neg (by simpa using other)]

theorem declare_here (nsPrefix : Option String) (uri : String) :
    (naming.declare nsPrefix uri).here = naming.here ++ [⟨nsPrefix, uri⟩] := by
  rw [here, declare_frames frames]
  rfl

end

/-- The naming within a tag, some names of which have been found: outside there are other frames,
and no prefix is declared twice. -/
structure InTag (outer : List (List Declaration)) (naming : Naming) : Prop where
  orderly : naming.Orderly
  frames : naming.frames = naming.here :: outer
  prefixes : (naming.here.map (·.nsPrefix)).Nodup

/-- Names found before are names still. -/
structure Keeps (naming after : Naming) : Prop where
  bound : ∀ bound uri, naming.lookup? (some bound) = some uri →
    after.lookup? (some bound) = some uri
  default : after.lookup? none = naming.lookup? none

theorem Keeps.refl (naming : Naming) : Keeps naming naming := ⟨fun _ _ found => found, rfl⟩

theorem Keeps.trans {last : Naming} (first : Keeps naming after) (second : Keeps after last) :
    Keeps naming last :=
  ⟨fun bound uri found => second.bound bound uri (first.bound bound uri found),
    second.default.trans first.default⟩

theorem NamesElement.keep {nsPrefix uri : Option String} (named : naming.NamesElement nsPrefix uri)
    (keeps : Keeps naming after) : after.NamesElement nsPrefix uri := by
  cases named with
  | unbound found => exact .unbound (keeps.default.trans found)
  | default found => exact .default (keeps.default.trans found)
  | bound found => exact .bound (keeps.bound _ _ found)

theorem NamesAttribute.keep {nsPrefix uri : Option String}
    (named : naming.NamesAttribute nsPrefix uri) (keeps : Keeps naming after) :
    after.NamesAttribute nsPrefix uri := by
  cases named with
  | plain => exact .plain
  | xml => exact .xml
  | bound apart found => exact .bound apart (keeps.bound _ _ found)

namespace InTag

variable (inTag : InTag outer naming)
include inTag

theorem declare {nsPrefix : Option String} {uri : String}
    (sound : Declaration.Sound ⟨nsPrefix, uri⟩)
    (chosen : ∀ bound, nsPrefix = some bound →
      uri ≠ "" ∧ Chosen naming.generated bound uri ∧ naming.Undeclared bound)
    (fresh : ∀ declaration ∈ naming.here, declaration.nsPrefix ≠ nsPrefix) :
    InTag outer (naming.declare nsPrefix uri) := by
  have declarations := declare_declarations inTag.frames nsPrefix uri
  refine ⟨⟨?_, ?_, ?_⟩, ?_, ?_⟩
  · intro declaration member
    rw [declarations] at member
    obtain rfl | earlier := List.mem_cons.mp member
    · exact sound
    · exact inTag.orderly.sound declaration earlier
  · intro declaration member bound same
    rw [declarations] at member
    rw [declare_generated inTag.frames]
    obtain rfl | earlier := List.mem_cons.mp member
    · exact ⟨(chosen bound same).1, (chosen bound same).2.1⟩
    · exact inTag.orderly.chosen declaration earlier bound same
  · intro bound first second left right
    rw [declarations, List.mem_cons] at left right
    obtain leftNew | left := left
    · obtain rightNew | right := right
      · rw [(Declaration.mk.inj leftNew).2, (Declaration.mk.inj rightNew).2]
      · exact absurd rfl ((chosen bound (Declaration.mk.inj leftNew).1.symm).2.2 _ right)
    · obtain rightNew | right := right
      · exact absurd rfl ((chosen bound (Declaration.mk.inj rightNew).1.symm).2.2 _ left)
      · exact inTag.orderly.single bound first second left right
  · rw [declare_frames inTag.frames, declare_here inTag.frames]
  · rw [declare_here inTag.frames, List.map_append, List.nodup_append]
    refine ⟨inTag.prefixes, by simp, ?_⟩
    rintro _ member _ last rfl
    obtain ⟨declaration, inHere, same⟩ := List.mem_map.mp member
    exact fresh declaration inHere (same.trans (by simpa using last))

/-- A prefix that is declared nowhere yet may be declared for any namespace it is chosen for. -/
theorem declare_bound {bound uri : String} (undeclared : naming.Undeclared bound)
    (plain : IsUriText uri) (nonempty : uri ≠ "") (notXml : uri ≠ xmlUri)
    (notXmlns : uri ≠ xmlnsUri) (chosen : Chosen naming.generated bound uri) :
    InTag outer (naming.declare (some bound) uri) ∧
      Keeps naming (naming.declare (some bound) uri) ∧
      (naming.declare (some bound) uri).lookup? (some bound) = some uri := by
  obtain ⟨part, partNotXml, partNotXmlns⟩ := chosen.isNamePart
  refine ⟨inTag.declare ⟨plain, ?_⟩ ?_ ?_, ⟨?_, ?_⟩, ?_⟩
  · rintro _ ⟨⟩
    exact ⟨part, partNotXmlns, notXmlns, fun same => absurd same partNotXml,
      fun same => absurd same notXml⟩
  · rintro _ ⟨⟩
    exact ⟨nonempty, chosen, undeclared⟩
  · exact fun declaration inHere => undeclared declaration (here_subset inHere)
  · -- A name found before has another prefix, as this one was undeclared.
    intro other found looked
    rw [lookup?_declare inTag.frames, if_neg]
    · exact looked
    · rintro ⟨⟩
      rw [lookup?_of_undeclared undeclared] at looked
      contradiction
  · rw [lookup?_declare inTag.frames, if_neg (by simp)]
  · rw [lookup?_declare inTag.frames, if_pos rfl]
    simp [nonempty]

/-- The default namespace may be declared, or taken back, as long as the tag has not done so. -/
theorem declare_default {uri : String} (plain : IsUriText uri)
    (fresh : naming.isDeclaredHere none = false) :
    InTag outer (naming.declare none uri) ∧
      (naming.declare none uri).lookup? none = (some uri).filter (· ≠ "") := by
  refine ⟨inTag.declare ⟨plain, by simp⟩ (by simp) fun declaration inHere => ?_, ?_⟩
  · simpa using List.any_eq_false.mp fresh declaration inHere
  · rw [lookup?_declare inTag.frames, if_pos rfl]

end InTag

theorem Orderly.undeclared_conventional (orderly : naming.Orderly) {bound uri : String}
    (conventional : conventionalPrefix? uri = some bound) (notXml : uri ≠ xmlUri)
    (unbound : naming.lookup? (some bound) ≠ some uri) : naming.Undeclared bound := by
  rintro ⟨nsPrefix, other⟩ member rfl
  obtain ⟨-, ⟨otherConventional, otherNotXml⟩ | ⟨number, -, made⟩⟩ :=
    orderly.chosen _ member bound rfl
  · obtain rfl := conventional_inj otherConventional otherNotXml conventional notXml
    exact unbound (orderly.lookup? member)
  · exact conventional_ne_madeUp conventional notXml number made

theorem Orderly.raise (orderly : naming.Orderly) (same : after.frames = naming.frames)
    (more : naming.generated ≤ after.generated) : after.Orderly := by
  have declarations := declarations_congr same
  refine ⟨?_, ?_, ?_⟩
  · rw [Sound, declarations]
    exact orderly.sound
  · intro declaration member bound prefixed
    rw [declarations] at member
    obtain ⟨nonempty, conventional | ⟨number, used, made⟩⟩ :=
      orderly.chosen declaration member bound prefixed
    · exact ⟨nonempty, .inl conventional⟩
    · exact ⟨nonempty, .inr ⟨number, Nat.le_trans used more, made⟩⟩
  · rw [declarations]
    exact orderly.single

theorem Orderly.leave (orderly : naming.Orderly) : naming.leave.Orderly := by
  have subset : ∀ declaration ∈ naming.leave.declarations, declaration ∈ naming.declarations := by
    intro declaration member
    obtain ⟨frame, inFrames, inFrame⟩ := List.mem_flatMap.mp member
    exact List.mem_flatMap.mpr ⟨frame, List.mem_of_mem_drop inFrames, inFrame⟩
  exact ⟨fun declaration member => orderly.sound declaration (subset declaration member),
    fun declaration member => orderly.chosen declaration (subset declaration member),
    fun bound first second left right =>
      orderly.single bound first second (subset _ left) (subset _ right)⟩

theorem Orderly.enter (orderly : naming.Orderly) : InTag naming.frames (naming.enter []) := by
  have declarations : (naming.enter []).declarations = naming.declarations := by
    simp [Naming.enter, Naming.declarations]
  refine ⟨⟨?_, ?_, ?_⟩, rfl, by simp [Naming.enter, here]⟩
  · rw [Sound, declarations]
    exact orderly.sound
  · rw [declarations]
    exact orderly.chosen
  · rw [declarations]
    exact orderly.single

namespace InTag

variable (inTag : InTag outer naming)
include inTag

/-- The name of an element in its new frame: only a conventional prefix or the default namespace is
ever declared for it. -/
theorem elementName {tag : Tag} (made : tag.Made) (unframed : naming.here = [])
    (plain : ∀ uri, tag.name.uri = some uri → IsUriText uri ∧ uri ≠ xmlnsUri ∧ uri ≠ xmlUri) :
    ∃ after nsPrefix, naming.elementName tag = (after, qualified nsPrefix tag.name.localName) ∧
      InTag outer after ∧ after.NamesElement nsPrefix tag.name.uri := by
  have undeclaredHere (nsPrefix : Option String) : naming.isDeclaredHere nsPrefix = false := by
    simp [isDeclaredHere, unframed]
  unfold Naming.elementName
  cases uriEq : tag.name.uri with
  | none =>
    by_cases default : (naming.lookup? none).isSome = true
    · obtain ⟨declared, looked⟩ := inTag.declare_default
        (show IsUriText "" by simp [IsUriText]) (undeclaredHere none)
      exact ⟨_, none, by simp [default, qualified], declared, .unbound looked⟩
    · exact ⟨naming, none, by simp [default, qualified], inTag, .unbound (by simpa using default)⟩
  | some uri =>
    obtain ⟨isText, notXmlns, notXml⟩ := plain uri uriEq
    have nonempty : uri ≠ "" := by
      rintro rfl
      exact made.name uriEq
    cases own : tag.nsPrefix with
    | none =>
      by_cases default : naming.lookup? none = some uri
      · exact ⟨naming, none, by simp [default, qualified], inTag, .default default⟩
      · obtain ⟨declared, looked⟩ := inTag.declare_default isText (undeclaredHere none)
        refine ⟨_, none, by simp [default, qualified, undeclaredHere], declared, .default ?_⟩
        rw [looked]
        simp [nonempty]
    | some bound =>
      by_cases found : naming.lookup? (some bound) = some uri
      · exact ⟨naming, some bound, by simp [found, qualified], inTag, .bound found⟩
      · -- The prefix of the maker is conventional, so nothing else can have been declared for it.
        have conventional : conventionalPrefix? uri = some bound := by
          have prefixed := made.nsPrefix bound own
          rwa [Name.conventional?, uriEq] at prefixed
        have undeclared := inTag.orderly.undeclared_conventional conventional notXml found
        obtain ⟨declared, -, looked⟩ := inTag.declare_bound undeclared isText nonempty notXml notXmlns
          (.inl ⟨conventional, notXml⟩)
        exact ⟨_, some bound, by simp [found, qualified, undeclaredHere], declared, .bound looked⟩

theorem declareFresh {uri : String} (plain : IsUriText uri) (nonempty : uri ≠ "")
    (notXml : uri ≠ xmlUri) (notXmlns : uri ≠ xmlnsUri) :
    ∃ after bound, naming.declareFresh uri = (after, bound) ∧ InTag outer after ∧
      Keeps naming after ∧ after.lookup? (some bound) = some uri := by
  have raised : InTag outer { naming with generated := naming.generated + 1 } :=
    ⟨inTag.orderly.raise rfl (Nat.le_succ _), inTag.frames, inTag.prefixes⟩
  have undeclared : Undeclared { naming with generated := naming.generated + 1 }
      (madeUp (naming.generated + 1)) := inTag.orderly.undeclared_next
  obtain ⟨declared, keeps, looked⟩ := raised.declare_bound undeclared plain nonempty notXml notXmlns
    (.inr ⟨_, Nat.le_refl _, rfl⟩)
  refine ⟨_, madeUp (naming.generated + 1), ?_, declared, ⟨keeps.bound, keeps.default⟩, looked⟩
  rw [Naming.declareFresh, inTag.orderly.freshNumber_eq]

theorem attributeName {entry : Attribute} (conventional : entry.nsPrefix = entry.name.conventional?)
    (named : entry.name.uri ≠ some "") (plain : ∀ uri, entry.name.uri = some uri →
      IsUriText uri ∧ uri ≠ xmlnsUri) :
    ∃ after nsPrefix, naming.attributeName entry = (after, qualified nsPrefix entry.name.localName) ∧
      InTag outer after ∧ Keeps naming after ∧ after.NamesAttribute nsPrefix entry.name.uri := by
  unfold Naming.attributeName
  cases uriEq : entry.name.uri with
  | none => exact ⟨naming, none, rfl, inTag, .refl naming, .plain⟩
  | some uri =>
    obtain ⟨isText, notXmlns⟩ := plain uri uriEq
    have nonempty : uri ≠ "" := by
      rintro rfl
      exact named uriEq
    rw [Name.conventional?, uriEq, Option.bind_some] at conventional
    by_cases xml : uri = xmlUri
    · subst xml
      exact ⟨naming, some "xml", by simp [qualified], inTag, .refl naming, .xml⟩
    simp only [if_neg xml]
    cases bound : entry.nsPrefix.filter fun own => naming.lookup? (some own) = some uri with
    | some own =>
      have looked := (Option.filter_eq_some_iff.mp bound).2
      exact ⟨naming, some own, rfl, inTag, .refl naming, .bound xml (by simpa using looked)⟩
    | none =>
      cases found : naming.prefixFor? uri with
      | some other =>
        have looked := List.find?_some found
        exact ⟨naming, some other, rfl, inTag, .refl naming, .bound xml (by simpa using looked)⟩
      | none =>
        cases given : entry.nsPrefix with
        | none =>
          obtain ⟨after, fresh, declared, within, keeps, looked⟩ :=
            inTag.declareFresh isText nonempty xml notXmlns
          exact ⟨after, some fresh, by simp [declared, qualified], within, keeps, .bound xml looked⟩
        | some own =>
          have unbound : naming.lookup? (some own) ≠ some uri := by
            intro looked
            simp [given, looked] at bound
          rw [given] at conventional
          have undeclared :=
            inTag.orderly.undeclared_conventional conventional.symm xml unbound
          obtain ⟨declared, keeps, looked⟩ := inTag.declare_bound undeclared isText nonempty xml
            notXmlns (.inl ⟨conventional.symm, xml⟩)
          refine ⟨_, some own, ?_, declared, keeps, .bound xml looked⟩
          simp [Option.filter, not_isDeclaredHere undeclared, qualified]

/-- All attributes of a tag are given names that the whole frame agrees with. -/
theorem attributeNames {attributes : List Attribute}
    (made : ∀ entry ∈ attributes, entry.nsPrefix = entry.name.conventional? ∧
      entry.name.uri ≠ some "")
    (plain : ∀ entry ∈ attributes, ∀ uri, entry.name.uri = some uri →
      IsUriText uri ∧ uri ≠ xmlnsUri) :
    ∃ after settled, naming.attributeNames attributes = (after, settled.map Attribute.written) ∧
      InTag outer after ∧ Keeps naming after ∧
      List.Forall₂ (fun entry kept => kept.name = entry.name ∧ kept.value = entry.value)
        attributes settled ∧
      ∀ kept ∈ settled, after.NamesAttribute kept.nsPrefix kept.name.uri := by
  induction attributes generalizing naming with
  | nil => exact ⟨naming, [], rfl, inTag, .refl naming, .nil, by simp⟩
  | cons entry rest ih =>
    obtain ⟨conventional, named⟩ := made entry (by simp)
    obtain ⟨middle, nsPrefix, first, withinMiddle, keepsMiddle, names⟩ :=
      inTag.attributeName conventional named (plain entry (by simp))
    obtain ⟨after, settled, others, withinAfter, keepsAfter, same, all⟩ :=
      ih withinMiddle (fun other member => made other (by simp [member]))
        fun other member => plain other (by simp [member])
    refine ⟨after, ⟨entry.name, nsPrefix, entry.value⟩ :: settled, ?_, withinAfter,
      keepsMiddle.trans keepsAfter, .cons ⟨rfl, rfl⟩ same, fun kept member => ?_⟩
    · simp only [Naming.attributeNames, first, others]
      rfl
    · obtain rfl | later := List.mem_cons.mp member
      · exact names.keep keepsAfter
      · exact all kept later

end InTag

end Naming
end KeyholeMarkup.Xml

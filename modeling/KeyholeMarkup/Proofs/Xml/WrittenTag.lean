import KeyholeMarkup.Proofs.Xml.Lexing
import KeyholeMarkup.Xml.Scope

/-! The parts of a written tag. Its name, its attributes with their escaped values, and the prefixes
of names are found again in its text. -/
namespace KeyholeMarkup.Xml
open KeyholeMarkup.Text

/-- A local name with its prefix, if it has one. -/
def qualified (nsPrefix : Option String) (localName : String) : String :=
  match nsPrefix with
  | some bound => Naming.written bound localName
  | none => localName

/-- A name that can be a prefix or stand behind one. -/
structure IsNamePart (text : String) : Prop where
  tagName : IsTagName text.toList
  whole : ':' ∉ text.toList

namespace AttributeList

/-- What has been read of an attribute list, without positions. -/
structure Holds (state : State) (mode : Mode) (name value : List Char)
    (done : List (List Char × List Char)) : Prop where
  mode : state.mode = mode
  name : state.name.reverse = name
  value : state.value.reverse = value
  finished : state.finished.reverse.map (fun entry => (entry.name, entry.value)) = done
  fault : state.fault = none

variable {unique : Bool} {state : State} {mode after : Mode} {name value text : List Char}
  {done : List (List Char × List Char)}

theorem Holds.step_eq (holds : Holds state mode name value done) (c : Char) :
    step unique state c = { advance unique state c with
      offset := (advance unique state c).offset + c.utf8Size } := by
  simp [step, holds.fault]

theorem Holds.gap (holds : Holds state .gap name value done) :
    Holds (step unique state ' ') .gap name value done := by
  have advanced : advance unique state ' ' = state := by
    simp [advance, holds.mode, isSpace]
  rw [holds.step_eq, advanced]
  exact ⟨holds.mode, holds.name, holds.value, holds.finished, holds.fault⟩

theorem Holds.nameStart (holds : Holds state .gap name value done) {c : Char}
    (plain : isTagChar c) : Holds (step unique state c) .name [c] [] done := by
  have advanced : advance unique state c =
      { state with mode := .name, name := [c], position := state.offset, value := [] } := by
    simp [advance, holds.mode, (isTagChar_iff.mp plain).1]
  rw [holds.step_eq, advanced]
  exact ⟨rfl, rfl, rfl, holds.finished, holds.fault⟩

theorem Holds.nameChar (holds : Holds state .name name value done) {c : Char}
    (plain : isTagChar c) : Holds (step unique state c) .name (name ++ [c]) value done := by
  obtain ⟨space, -, -, -, -, equals⟩ := isTagChar_iff.mp plain
  have advanced : advance unique state c = { state with name := c :: state.name } := by
    simp [advance, holds.mode, space, equals]
  rw [holds.step_eq, advanced]
  exact ⟨holds.mode, by simp [holds.name], holds.value, holds.finished, holds.fault⟩

theorem Holds.nameRest (holds : Holds state .name name value done)
    (plain : ∀ c ∈ text, isTagChar c) :
    Holds (text.foldl (step unique) state) .name (name ++ text) value done := by
  induction text generalizing state name with
  | nil => simpa using holds
  | cons c rest ih =>
    rw [List.foldl_cons, List.append_cons]
    exact ih (holds.nameChar (plain c (by simp))) fun d member => plain d (by simp [member])

theorem Holds.whole_name (holds : Holds state .gap name value done) (named : IsTagName text) :
    Holds (text.foldl (step unique) state) .name text [] done := by
  cases text with
  | nil => exact absurd rfl named.nonempty
  | cons c rest =>
    rw [List.foldl_cons]
    exact (holds.nameStart (named.plain c (by simp))).nameRest
      fun d member => named.plain d (by simp [member])

/-- The names before it do not stop a name that is new or may be written again. -/
theorem Holds.equals (holds : Holds state .name name value done)
    (new : unique = true → name ∉ done.map (·.1)) :
    Holds (step unique state '=') .afterEquals name value done := by
  have absent : (if unique then state.finished.find? (·.name == state.name.reverse) else none) =
      none := by
    cases unique with
    | false => rfl
    | true =>
      simp only [if_true, List.find?_eq_none, holds.name, beq_iff_eq]
      rintro entry member rfl
      refine new rfl ?_
      rw [← holds.finished]
      simp only [List.map_map, List.mem_map, List.mem_reverse]
      exact ⟨entry, member, rfl⟩
  have advanced : advance unique state '=' = { state with mode := .afterEquals } := by
    simp [advance, holds.mode, AttributeList.equals, absent]
  rw [holds.step_eq, advanced]
  exact ⟨rfl, holds.name, holds.value, holds.finished, holds.fault⟩

theorem Holds.openQuote (holds : Holds state .afterEquals name value done) :
    Holds (step unique state '"') (.value '"') name value done := by
  have advanced : advance unique state '"' = { state with mode := .value '"' } := by
    simp [advance, holds.mode, isSpace]
  rw [holds.step_eq, advanced]
  exact ⟨rfl, holds.name, holds.value, holds.finished, holds.fault⟩

theorem Holds.valueChar (holds : Holds state (.value '"') name value done) {c : Char}
    (inside : c ≠ '"') : Holds (step unique state c) (.value '"') name (value ++ [c]) done := by
  have advanced : advance unique state c = { state with value := c :: state.value } := by
    simp [advance, holds.mode, inside]
  rw [holds.step_eq, advanced]
  exact ⟨holds.mode, holds.name, by simp [holds.value], holds.finished, holds.fault⟩

theorem Holds.whole_value (holds : Holds state (.value '"') name value done) (inside : '"' ∉ text) :
    Holds (text.foldl (step unique) state) (.value '"') name (value ++ text) done := by
  induction text generalizing state value with
  | nil => simpa using holds
  | cons c rest ih =>
    rw [List.mem_cons, not_or] at inside
    rw [List.foldl_cons, List.append_cons]
    exact ih (holds.valueChar (Ne.symm inside.1)) inside.2

theorem Holds.closeQuote (holds : Holds state (.value '"') name value done) :
    Holds (step unique state '"') .gap name value (done ++ [(name, value)]) := by
  have advanced : advance unique state '"' = { state with
      mode := .gap
      finished := ⟨state.name.reverse, state.value.reverse, state.position⟩ :: state.finished } := by
    simp [advance, holds.mode]
  rw [holds.step_eq, advanced]
  exact ⟨rfl, holds.name, holds.value, by simp [← holds.finished, holds.name, holds.value],
    holds.fault⟩

def asWritten (entry : String × String) : List Char × List Char :=
  (entry.1.toList, escape entry.2.toList)

theorem Holds.attribute (holds : Holds state .gap name value done) (entry : String × String)
    (named : IsTagName entry.1.toList)
    (new : unique = true → entry.1.toList ∉ done.map (·.1)) :
    Holds ((Markup.writeAttribute entry).foldl (step unique) state) .gap entry.1.toList
      (escape entry.2.toList) (done ++ [asWritten entry]) := by
  have inside := not_mem_escape entry.2.toList (show '"' ∈ ['<', '>', '\'', '"'] by simp)
  have written : Markup.writeAttribute entry =
      [' '] ++ entry.1.toList ++ ['='] ++ ['"'] ++ escape entry.2.toList ++ ['"'] := by
    simp [Markup.writeAttribute]
  rw [written]
  simp only [List.foldl_append]
  exact (((holds.gap.whole_name named).equals new).openQuote.whole_value inside).closeQuote

theorem Holds.attributes (unique : Bool) {attributes : List (String × String)}
    (holds : Holds state .gap name value done)
    (named : ∀ entry ∈ attributes, IsTagName entry.1.toList)
    (distinct : unique = true → (done.map (·.1) ++ attributes.map (·.1.toList)).Nodup) :
    ∃ name value, Holds ((attributes.flatMap Markup.writeAttribute).foldl (step unique) state) .gap
      name value (done ++ attributes.map asWritten) := by
  induction attributes generalizing state name value done with
  | nil => exact ⟨name, value, by simpa using holds⟩
  | cons entry rest ih =>
    have first := holds.attribute entry (named entry (by simp)) (fun kept member => by
      refine (List.nodup_append.mp (distinct kept)).2.2 _ member _ ?_ rfl
      simp)
    obtain ⟨name, value, others⟩ := ih first (fun other member => named other (by simp [member]))
      (fun kept => by simpa [asWritten] using distinct kept)
    refine ⟨name, value, ?_⟩
    rw [List.flatMap_cons, List.foldl_append]
    simpa using others

end AttributeList

variable {name : String} {attributes : List (String × String)}

theorem takeWhile_append_space {text rest : List Char} (named : IsTagName text)
    (ends : rest = [] ∨ ∃ others, rest = ' ' :: others) :
    (text ++ rest).takeWhile (!isSpace ·) = text ∧ (text ++ rest).dropWhile (!isSpace ·) = rest := by
  have spaceless : ∀ c ∈ text, (!isSpace c) = true := fun c member => by
    simp [(isTagChar_iff.mp (named.plain c member)).1]
  rw [List.takeWhile_append_of_pos spaceless, List.dropWhile_append_of_pos spaceless]
  obtain rfl | ⟨others, rfl⟩ := ends
  · simp
  · simp [isSpace]

theorem flatMap_writeAttribute (attributes : List (String × String)) :
    attributes.flatMap Markup.writeAttribute = [] ∨
      ∃ others, attributes.flatMap Markup.writeAttribute = ' ' :: others := by
  cases attributes with
  | nil => exact .inl rfl
  | cons entry rest => exact .inr ⟨_, rfl⟩

theorem tagName_tagContent (named : IsTagName name.toList) :
    tagName (Markup.tagContent name attributes) = name.toList :=
  (takeWhile_append_space named (flatMap_writeAttribute attributes)).1

theorem tagAttributes_tagContent (unique : Bool) (named : IsTagName name.toList)
    (plain : ∀ entry ∈ attributes, IsTagName entry.1.toList)
    (distinct : unique = true → (attributes.map (·.1.toList)).Nodup) :
    (tagAttributes unique (Markup.tagContent name attributes)).attributes.map
        (fun entry => (entry.name, entry.value)) = attributes.map AttributeList.asWritten ∧
      (tagAttributes unique (Markup.tagContent name attributes)).fault = none := by
  have split := (takeWhile_append_space named (flatMap_writeAttribute attributes)).2
  unfold tagAttributes
  rw [Markup.tagContent, split]
  have start (offset : Nat) :
      AttributeList.Holds ⟨.gap, [], 0, [], offset, [], none⟩ .gap [] [] [] :=
    ⟨rfl, rfl, rfl, rfl, rfl⟩
  obtain ⟨_, _, holds⟩ := AttributeList.Holds.attributes unique (start (byteLength (tagName
    (name.toList ++ attributes.flatMap Markup.writeAttribute)))) plain fun unique => by
      simpa using distinct unique
  simp only [AttributeList.read, AttributeList.complete, holds.fault, holds.mode]
  exact ⟨by simpa using holds.finished, trivial⟩

theorem splitName_qualified {nsPrefix : Option String} {localName : String}
    (bound : ∀ part, nsPrefix = some part → IsNamePart part) (named : IsNamePart localName) :
    splitName (qualified nsPrefix localName).toList =
      (nsPrefix.map String.toList, localName.toList) := by
  have colonless {text : String} (part : IsNamePart text) :
      ∀ c ∈ text.toList, (decide (c ≠ ':')) = true := by
    intro c member
    exact decide_eq_true fun same => part.whole (same ▸ member)
  cases nsPrefix with
  | none =>
    have whole : localName.toList.dropWhile (· ≠ ':') = [] := by
      rw [← List.append_nil localName.toList, List.dropWhile_append_of_pos (colonless named)]
      rfl
    simp only [qualified, splitName, whole, Option.map_none]
  | some part =>
    have written : (qualified (some part) localName).toList =
        part.toList ++ ':' :: localName.toList := by
      simp [qualified, Naming.written]
    have left := colonless (bound part rfl)
    rw [written]
    simp only [splitName, List.dropWhile_append_of_pos left, List.takeWhile_append_of_pos left]
    simp

theorem declaredPrefix?_written (declaration : Declaration) :
    declaredPrefix? declaration.written.1.toList =
      some (declaration.nsPrefix.map String.toList) := by
  obtain ⟨nsPrefix, uri⟩ := declaration
  cases nsPrefix with
  | none =>
    have written : "xmlns".toList = ['x', 'm', 'l', 'n', 's'] := rfl
    rw [Declaration.written, written]
    simp [declaredPrefix?]
  | some part =>
    have written : ("xmlns:" ++ part).toList =
        'x' :: 'm' :: 'l' :: 'n' :: 's' :: ':' :: part.toList := by
      simp
    rw [Declaration.written, written]
    simp [declaredPrefix?]

theorem declaredPrefix?_qualified {nsPrefix : Option String} {localName : String}
    (bound : ∀ part, nsPrefix = some part → IsNamePart part ∧ part ≠ "xmlns")
    (named : IsNamePart localName) (own : nsPrefix = none → localName ≠ "xmlns") :
    declaredPrefix? (qualified nsPrefix localName).toList = none := by
  have xmlns : "xmlns".toList = ['x', 'm', 'l', 'n', 's'] := rfl
  have split := splitName_qualified (fun part same => (bound part same).1) named
  unfold declaredPrefix?
  split
  · rename_i whole
    rw [whole] at split
    obtain ⟨unprefixed, same⟩ := Prod.mk.inj split
    have bare : nsPrefix = none := by simpa [splitName] using unprefixed.symm
    refine absurd (String.toList_inj.mp ?_) (own bare)
    rw [xmlns]
    exact same.symm
  · rename_i rest whole
    rw [whole] at split
    obtain ⟨prefixed, -⟩ := Prod.mk.inj split
    obtain ⟨part, same, text⟩ : ∃ part, nsPrefix = some part ∧
        part.toList = ['x', 'm', 'l', 'n', 's'] := by
      simpa [splitName] using prefixed.symm
    exact absurd (String.toList_inj.mp (text.trans xmlns.symm)) (bound part same).2
  · rfl

end KeyholeMarkup.Xml

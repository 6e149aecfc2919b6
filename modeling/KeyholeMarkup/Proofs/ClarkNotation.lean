import KeyholeMarkup.Script.Builders

/-! Names in Clark notation. One printer writes them; documents and scripts have each a reader of
their own, which cuts a text at its first closing brace. Both readers find the same parts, printing
what has been read gives the text back, and reading what has been printed gives back exactly those
names whose parts the notation keeps apart. -/
namespace KeyholeMarkup
open KeyholeMarkup.Xml KeyholeMarkup.Script

/-- A text in Clark notation, with its two parts. -/
structure InClark (text uri localName : List Char) : Prop where
  written : text = '{' :: uri ++ '}' :: localName
  closed : '}' ∉ uri
  uri_ne : uri ≠ []
  localName_ne : localName ≠ []

/-- A namespace is written between the braces, so it must not be empty or hold a closing one, and
the local part must not be empty. A name without a namespace must not look like one that has it. -/
def Xml.Name.Expressible (name : Name) : Prop :=
  match name.uri with
  | some uri => uri ≠ "" ∧ '}' ∉ uri.toList ∧ name.localName ≠ ""
  | none => ¬ ∃ uri localName, InClark name.localName.toList uri localName

theorem splitAtFirst?_eq_some_iff {mark : Char} {text before after : List Char} :
    splitAtFirst? mark text = some (before, after) ↔
      text = before ++ mark :: after ∧ mark ∉ before := by
  induction text generalizing before with
  | nil => simp [splitAtFirst?]
  | cons c text ih =>
    rw [splitAtFirst?]
    by_cases same : c = mark
    · cases before with
      | nil => simp [same]
      | cons d before =>
        rw [if_pos same, ← same]
        simp only [List.cons_append, List.cons.injEq, List.mem_cons, not_or]
        constructor
        · rintro found
          cases found
        · rintro ⟨⟨first, -⟩, other, -⟩
          exact absurd first other
    · cases before with
      | nil => simp [same]
      | cons d before =>
        rw [if_neg same]
        simp only [Option.map_eq_some_iff, Prod.exists, Prod.mk.injEq, List.cons.injEq,
          List.cons_append, List.mem_cons, not_or]
        constructor
        · rintro ⟨_, _, found, ⟨rfl, rfl⟩, rfl⟩
          obtain ⟨whole, first⟩ := ih.mp found
          exact ⟨⟨rfl, whole⟩, Ne.symm same, first⟩
        · rintro ⟨⟨rfl, whole⟩, -, first⟩
          exact ⟨before, after, ih.mpr ⟨whole, first⟩, ⟨rfl, rfl⟩, rfl⟩

/-- What the first occurrence of a character cuts off, by a scan for the characters before it. -/
theorem splitAtFirst?_eq_scan (mark : Char) (text : List Char) :
    splitAtFirst? mark text = (text.dropWhile (· ≠ mark)).head?.map fun _ =>
      (text.takeWhile (· ≠ mark), (text.dropWhile (· ≠ mark)).drop 1) := by
  induction text with
  | nil => rfl
  | cons c text ih =>
    rw [splitAtFirst?, ih]
    by_cases same : c = mark <;> simp [same, Function.comp_def]

theorem inClark_cons_iff {rest uri localName : List Char} :
    InClark ('{' :: rest) uri localName ↔
      splitAtFirst? '}' rest = some (uri, localName) ∧ uri ≠ [] ∧ localName ≠ [] := by
  rw [splitAtFirst?_eq_some_iff]
  constructor
  · rintro ⟨written, closed, uri_ne, localName_ne⟩
    exact ⟨⟨List.tail_eq_of_cons_eq written, closed⟩, uri_ne, localName_ne⟩
  · rintro ⟨⟨rfl, closed⟩, uri_ne, localName_ne⟩
    exact ⟨rfl, closed, uri_ne, localName_ne⟩

theorem splitClark?_eq_some_iff {text uri localName : List Char} :
    Name.splitClark? text = some (uri, localName) ↔ InClark text uri localName := by
  unfold Name.splitClark?
  split
  · rename_i rest
    rw [inClark_cons_iff, splitAtFirst?_eq_scan]
    dsimp only
    cases rest.dropWhile (· ≠ '}') with
    | nil => simp
    | cons mark after =>
      simp only [List.drop_one, List.tail_cons, List.head?_cons, Option.map_some, Option.some.injEq,
        Prod.mk.injEq, Bool.or_eq_true, List.isEmpty_iff, Option.ite_none_left_eq_some, not_or]
      constructor
      · rintro ⟨full, rfl, rfl⟩
        exact ⟨⟨rfl, rfl⟩, full⟩
      · rintro ⟨⟨rfl, rfl⟩, full⟩
        exact ⟨full, rfl, rfl⟩
  · rename_i other
    constructor
    · rintro found
      cases found
    · rintro ⟨written, -, -, -⟩
      exact absurd written (other _)

section
variable {text : String} {uri localName : List Char}

theorem ofClark_of_inClark (parts : InClark text.toList uri localName) :
    Name.ofClark text = ⟨some (String.ofList uri), String.ofList localName⟩ := by
  rw [Name.ofClark, splitClark?_eq_some_iff.mpr parts]

theorem ofClark_of_not_inClark (whole : ¬ ∃ uri localName, InClark text.toList uri localName) :
    Name.ofClark text = .plain text := by
  have unsplit : Name.splitClark? text.toList = none := by
    rw [Option.eq_none_iff_forall_ne_some]
    rintro ⟨uri, localName⟩ found
    exact whole ⟨uri, localName, splitClark?_eq_some_iff.mp found⟩
  rw [Name.ofClark, unsplit]

theorem splitQualified_of_inClark (parts : InClark text.toList uri localName) :
    splitQualified text = (some (String.ofList uri), String.ofList localName) := by
  obtain ⟨written, closed, uri_ne, localName_ne⟩ := parts
  have cut : splitAtFirst? '}' (uri ++ '}' :: localName) = some (uri, localName) :=
    splitAtFirst?_eq_some_iff.mpr ⟨rfl, closed⟩
  rw [splitQualified, written, List.cons_append]
  simp [cut, uri_ne, localName_ne]

theorem splitQualified_of_not_inClark
    (whole : ¬ ∃ uri localName, InClark text.toList uri localName) :
    splitQualified text = (none, text) := by
  unfold splitQualified
  split
  · rename_i rest starts
    split
    · rename_i uri localName cut
      split
      · rfl
      · rename_i full
        rw [Bool.or_eq_true, List.isEmpty_iff, List.isEmpty_iff, not_or] at full
        exact absurd ⟨uri, localName, starts ▸ inClark_cons_iff.mpr ⟨cut, full⟩⟩ whole
    · rfl
  · rfl

end

/-- Both readers find the same parts. -/
theorem splitQualified_eq (text : String) :
    splitQualified text = ((Name.ofClark text).uri, (Name.ofClark text).localName) := by
  by_cases parts : ∃ uri localName, InClark text.toList uri localName
  · obtain ⟨uri, localName, parts⟩ := parts
    rw [splitQualified_of_inClark parts, ofClark_of_inClark parts]
  · rw [splitQualified_of_not_inClark parts, ofClark_of_not_inClark parts, Name.plain]

theorem clark_ofClark (text : String) : (Name.ofClark text).clark = text := by
  by_cases parts : ∃ uri localName, InClark text.toList uri localName
  · obtain ⟨uri, localName, parts⟩ := parts
    rw [ofClark_of_inClark parts, ← String.toList_inj, parts.written]
    simp [Name.clark]
  · rw [ofClark_of_not_inClark parts, Name.plain, Name.clark]

theorem inClark_clark {uri localName : String} (uri_ne : uri ≠ "") (closed : '}' ∉ uri.toList)
    (localName_ne : localName ≠ "") :
    InClark (Name.clark ⟨some uri, localName⟩).toList uri.toList localName.toList :=
  ⟨by simp [Name.clark], closed, by simpa using uri_ne, by simpa using localName_ne⟩

theorem ofClark_clark_iff (name : Name) :
    Name.ofClark name.clark = name ↔ name.Expressible := by
  obtain ⟨uri, localName⟩ := name
  cases uri with
  | none =>
    constructor
    · rintro same ⟨uri', localName', parts⟩
      have split : Name.ofClark localName = _ := ofClark_of_inClark parts
      rw [Name.clark, split] at same
      cases same
    · exact ofClark_of_not_inClark
  | some uri =>
    constructor
    · intro same
      by_cases parts : ∃ uri' localName',
          InClark (Name.clark ⟨some uri, localName⟩).toList uri' localName'
      · obtain ⟨uri', localName', parts⟩ := parts
        rw [ofClark_of_inClark parts] at same
        cases same
        exact ⟨by simpa using parts.uri_ne, by simpa using parts.closed,
          by simpa using parts.localName_ne⟩
      · rw [ofClark_of_not_inClark parts] at same
        cases same
    · rintro ⟨uri_ne, closed, localName_ne⟩
      rw [ofClark_of_inClark (inClark_clark uri_ne closed localName_ne), String.ofList_toList,
        String.ofList_toList]

/-- Texts survive reading and printing, whatever their braces, and both readers agree on their
parts. Names survive printing and reading exactly if the notation can express them; then the builder
for a name as it is printed is the one for its namespace. -/
theorem clark_notation_inverts :
    (∀ text, (Name.ofClark text).clark = text ∧
      splitQualified text = ((Name.ofClark text).uri, (Name.ofClark text).localName)) ∧
    ∀ name : Name, (Name.ofClark name.clark = name ↔ name.Expressible) ∧
      (name.Expressible → ∀ builders : Builders,
        builders.resolveClark name.clark = builders.resolve name.uri) := by
  refine ⟨fun text => ⟨clark_ofClark text, splitQualified_eq text⟩, fun name => ?_⟩
  refine ⟨ofClark_clark_iff name, fun expressible builders => ?_⟩
  have same := (ofClark_clark_iff name).mpr expressible
  rw [Builders.resolveClark, splitQualified_eq, same]

/-- The namespace ends at the first closing brace. -/
example : splitQualified "\x7bu\x7dv\x7dl" = (some "u", "v\x7dl") := by decide +kernel

end KeyholeMarkup

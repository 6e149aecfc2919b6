import KeyholeMarkup.Proofs.Xml.Lexing
import KeyholeMarkup.Xml.Writer

/-! Texts in CDATA sections. A text is cut between the brackets and the angle bracket of every end mark
in it, so that each section ends where it is meant to, and the sections together hold the whole text. -/
namespace KeyholeMarkup.Xml

abbrev sectionStart : List Char := ['<', '!', '[', 'C', 'D', 'A', 'T', 'A', '[']

abbrev sectionEnd : List Char := [']', ']', '>']

/-- The rounds in which a text is cut. Up to the brackets of its first end mark it is one section, and
what is left begins with the angle bracket; a rest without any is the last section. -/
inductive CutsInto : List Char → List (List Char) → Prop
  | last {rest} : ¬ sectionEnd <:+: rest → CutsInto rest [rest]
  | cut {head tail others} : ¬ sectionEnd <:+: head ++ [']', ']'] → CutsInto ('>' :: tail) others →
    CutsInto (head ++ sectionEnd ++ tail) ((head ++ [']', ']']) :: others)

/-- What stands before the first end mark of a text, and what stands after it. -/
def untilEnd? : List Char → Option (List Char × List Char)
  | ']' :: ']' :: '>' :: rest => some ([], rest)
  | c :: rest => (untilEnd? rest).map fun (content, after) => (c :: content, after)
  | [] => none

theorem length_of_untilEnd? {text content after : List Char}
    (found : untilEnd? text = some (content, after)) : after.length < text.length := by
  fun_induction untilEnd? text generalizing content with
  | case1 rest =>
    cases found
    simp only [List.length_cons]
    omega
  | case2 c rest _ ih =>
    obtain ⟨⟨inner, left⟩, inside, same⟩ := Option.map_eq_some_iff.mp found
    cases same
    exact Nat.lt_succ_of_lt (ih inside)
  | case3 => cases found

/-- The content of the section that a text begins with, and the text after the section. -/
def section? (text : List Char) : Option (List Char × List Char) :=
  (sectionStart.isPrefixOf? text).bind untilEnd?

theorem length_of_section? {text content after : List Char}
    (found : section? text = some (content, after)) : after.length < text.length := by
  obtain ⟨rest, starts, inside⟩ := Option.bind_eq_some_iff.mp found
  obtain rfl := List.isPrefixOf?_eq_some_iff_append_eq.mp starts
  have shorter := length_of_untilEnd? inside
  rw [List.length_append]
  omega

/-- The contents of the sections that a text consists of. -/
def readSections? (text : List Char) : Option (List (List Char)) :=
  if text = [] then some []
  else
    match _found : section? text with
    | some (content, after) => (readSections? after).map (content :: ·)
    | none => none
termination_by text.length
decreasing_by exact length_of_section? _found

section Cutting

variable {c : Char} {text rest head tail : List Char} {parts : List (List Char)}

theorem cdataSections_cons (apart : ¬ sectionEnd <+: c :: rest) :
    cdataSections (c :: rest) = prepend c (cdataSections rest) := by
  rw [cdataSections]
  rintro left rfl rfl
  exact apart ⟨left, rfl⟩

theorem cdataSections_of_free (free : ¬ sectionEnd <:+: text) : cdataSections text = [text] := by
  induction text with
  | nil => rfl
  | cons c rest ih =>
    rw [List.infix_cons_iff, not_or] at free
    rw [cdataSections_cons free.1, ih free.2]
    rfl

theorem not_prefix_of_free (free : ¬ sectionEnd <:+: c :: head ++ [']', ']']) (tail : List Char) :
    ¬ sectionEnd <+: c :: (head ++ sectionEnd ++ tail) := by
  intro starts
  apply free
  apply List.IsPrefix.isInfix
  apply List.prefix_of_prefix_length_le starts
  · exact ⟨'>' :: tail, by simp⟩
  · simp

/-- One round of cutting. -/
theorem cdataSections_append (free : ¬ sectionEnd <:+: head ++ [']', ']']) (tail : List Char) :
    cdataSections (head ++ sectionEnd ++ tail) =
      (head ++ [']', ']']) :: cdataSections ('>' :: tail) := by
  induction head with
  | nil =>
    have rest : cdataSections ('>' :: tail) = prepend '>' (cdataSections tail) :=
      cdataSections_cons (by simp)
    rw [rest]
    rfl
  | cons c head ih =>
    have inner : ¬ sectionEnd <:+: head ++ [']', ']'] := fun inside =>
      free (inside.trans (List.suffix_cons c _).isInfix)
    have first := cdataSections_cons (not_prefix_of_free free tail)
    rw [List.cons_append, List.cons_append, first, ih inner]
    rfl

theorem CutsInto.cons (cuts : CutsInto rest parts) (apart : ¬ sectionEnd <+: c :: rest) :
    CutsInto (c :: rest) (prepend c parts) := by
  cases cuts with
  | last free =>
    apply CutsInto.last
    rw [List.infix_cons_iff, not_or]
    exact ⟨apart, free⟩
  | @cut head tail others free later =>
    refine @CutsInto.cut (c :: head) tail others ?_ later
    rw [List.cons_append, List.infix_cons_iff, not_or]
    refine ⟨fun starts => apart ?_, free⟩
    apply starts.trans
    exact ⟨'>' :: tail, by simp⟩

theorem cutsInto_cdataSections (text : List Char) : CutsInto text (cdataSections text) := by
  fun_induction cdataSections text with
  | case1 rest ih =>
    have later := ih.cons (c := '>') (by simp)
    exact @CutsInto.cut [] rest _ (fun inside => absurd inside.length_le (by simp)) later
  | case2 c rest apart ih =>
    apply ih.cons
    rintro ⟨left, starts⟩
    obtain ⟨rfl, same⟩ := List.cons.inj starts
    exact apart left rfl same.symm
  | case3 => exact .last (by simp)

/-- Cutting comes to an end, and the sections are the only ones that it can end with. -/
theorem cutsInto_iff : CutsInto text parts ↔ parts = cdataSections text := by
  constructor
  · intro cuts
    induction cuts with
    | last free => exact (cdataSections_of_free free).symm
    | cut free _ ih => rw [cdataSections_append free, ih]
  · rintro rfl
    exact cutsInto_cdataSections text

end Cutting

section Reading

variable {content : List Char} {parts : List (List Char)}

/-- The mark that is written behind a content is the first one, also behind brackets. -/
theorem untilEnd?_append (free : ¬ sectionEnd <:+: content) (rest : List Char) :
    untilEnd? (content ++ sectionEnd ++ rest) = some (content, rest) := by
  induction content with
  | nil => rfl
  | cons c content ih =>
    rw [List.infix_cons_iff, not_or] at free
    have inner := ih free.2
    rw [List.cons_append, List.cons_append, untilEnd?, inner]
    · rfl
    · rintro left rfl same
      match content with
      | [] => cases same
      | [_] => cases same
      | _ :: _ :: content =>
        cases same
        exact free.1 ⟨content, rfl⟩

theorem render_cdata (content : List Char) : (Markup.cdata (String.ofList content)).render =
    sectionStart ++ content ++ sectionEnd := by
  have written : (Markup.cdata (String.ofList content)).render =
    sectionStart ++ (String.ofList content).toList ++ sectionEnd := rfl
  rw [written, String.toList_ofList]

theorem readSections?_append (free : ¬ sectionEnd <:+: content) (rest : List Char) :
    readSections? (sectionStart ++ content ++ sectionEnd ++ rest) =
      (readSections? rest).map (content :: ·) := by
  have found : section? (sectionStart ++ content ++ sectionEnd ++ rest) = some (content, rest) := by
    have starts := List.isPrefixOf?_eq_some_iff_append_eq.mpr
      (List.append_assoc sectionStart content (sectionEnd ++ rest)).symm
    rw [← List.append_assoc] at starts
    rw [section?, starts, Option.bind_some, ← List.append_assoc, untilEnd?_append free]
  rw [readSections?, if_neg (by simp)]
  split
  · rename_i content' after found'
    rw [found] at found'
    cases found'
    rfl
  · rename_i absent
    rw [found] at absent
    cases absent

theorem readSections?_render (free : ∀ part ∈ parts, ¬ sectionEnd <:+: part) :
    readSections? (parts.flatMap fun part => (Markup.cdata (String.ofList part)).render) =
      some parts := by
  induction parts with
  | nil => rw [List.flatMap_nil, readSections?, if_pos rfl]
  | cons part parts ih =>
    obtain ⟨first, others⟩ := List.forall_mem_cons.mp free
    rw [List.flatMap_cons, render_cdata, readSections?_append first, ih others, Option.map_some]

theorem Lexer.Within.foldl_sections {lexer : Lexer} {done : List Token}
    (within : lexer.Within .text [] done) (free : ∀ part ∈ parts, ¬ sectionEnd <:+: part) :
    ((parts.flatMap fun part => (Markup.cdata (String.ofList part)).render).foldl step lexer).Within
      .text [] (done ++ parts.map .cdata) := by
  induction parts generalizing lexer done with
  | nil => simpa using within
  | cons part parts ih =>
    obtain ⟨first, others⟩ := List.forall_mem_cons.mp free
    have clean : (Markup.cdata (String.ofList part)).Clean := by
      rw [Markup.Clean, String.toList_ofList]
      exact first
    have read := ih (within_cdata within clean) others
    rw [List.flatMap_cons, List.foldl_append]
    simpa [textTokens, Markup.token] using read

theorem placeAll_cdata (size : Nat) (layout : Layout) (parts : List (List Char)) :
    Layout.placeAll size layout (parts.map fun part => .cdata (String.ofList part)) =
      parts.flatMap fun part => (Markup.cdata (String.ofList part)).render := by
  induction parts generalizing layout with
  | nil => rfl
  | cons part parts ih =>
    rw [List.map_cons, List.flatMap_cons, Layout.placeAll]
    exact congrArg ((Markup.cdata (String.ofList part)).render ++ ·) (ih _)

end Reading

/-- The text of an element that is listed for it is written in sections. Whatever end marks, brackets
and angle brackets it holds, cutting comes to an end, the sections make up the text, none of them
holds an end mark, and what is written, in any layout, is read as just these sections, whether each
is taken up to its first end mark or the whole is taken for markup. -/
theorem cdata_splitting_lossless {cdata : List Name} {tag : Tag} (text : String)
    (listed : tag.name ∈ cdata) :
    ∃ sections : List (List Char),
      textMarkup cdata tag text = sections.map (fun part => .cdata (String.ofList part)) ∧
      (∀ parts, CutsInto text.toList parts ↔ parts = sections) ∧
      sections.flatten = text.toList ∧
      (∀ part ∈ sections, ¬ sectionEnd <:+: part) ∧
      ∀ size layout, ∃ written, Layout.placeAll size layout (textMarkup cdata tag text) = written ∧
        readSections? written = some sections ∧
        (Lexemes.ofText written).lexemes.map (·.token) = sections.map .cdata ∧
        (Lexemes.ofText written).fault = none := by
  have markup : textMarkup cdata tag text =
      (cdataSections text.toList).map fun part => .cdata (String.ofList part) :=
    if_pos (List.contains_iff_mem.mpr listed)
  have free : ∀ part ∈ cdataSections text.toList, ¬ sectionEnd <:+: part :=
    fun part member => not_infix_of_mem_cdataSections member
  refine ⟨cdataSections text.toList, markup, fun parts => cutsInto_iff, flatten_cdataSections _, free,
    fun size layout => ⟨_, rfl, ?_⟩⟩
  rw [markup, placeAll_cdata]
  have read := (Lexer.within_initial.foldl_sections free).complete
  rw [List.nil_append] at read
  refine ⟨readSections?_render free, ?_, read.2⟩
  exact read.1.trans (List.append_nil _)

/-- Marks that overlap in their brackets, and one that the text ends with. -/
theorem cdata_splitting_lossless_overlapping :
    let tag : Tag := ⟨⟨some kmlUri, "description"⟩, none, [], [], some "]]]>]]>", none⟩
    let cdata := WriteOptions.standard.withKmlCdata.cdata
    let sections := ["]]]".toList, ">]]".toList, ">".toList]
    tag.name ∈ cdata ∧
    textMarkup cdata tag "]]]>]]>" = sections.map (fun part => .cdata (String.ofList part)) ∧
    ∀ size layout,
      readSections? (Layout.placeAll size layout (textMarkup cdata tag "]]]>]]>")) = some sections := by
  intro tag cdata sections
  have listed : tag.name ∈ cdata := by decide
  obtain ⟨found, markup, cuts, -, -, reads⟩ := cdata_splitting_lossless "]]]>]]>" listed
  have same : cdataSections "]]]>]]>".toList = sections := by decide
  have whole := cutsInto_iff.mp ((cuts found).mpr rfl)
  obtain rfl := whole.trans same
  refine ⟨listed, markup, fun size layout => ?_⟩
  obtain ⟨written, rfl, read, -⟩ := reads size layout
  exact read

end KeyholeMarkup.Xml

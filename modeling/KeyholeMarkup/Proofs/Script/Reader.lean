import KeyholeMarkup.Script.Builders
import KeyholeMarkup.Script.Literal
import KeyholeMarkup.Xml.Document
import KeyholeMarkup.Xml.Reference

/-! Reading of generated scripts. The part of the language that scripts are written in: nested
calls of builders, adjacent string literals, keyword and dictionary attributes, comment calls and
the statements that put comments beside the root. Anything else is not read. The calls that are
not closed yet are kept in a list, so every step leaves less text. -/
namespace KeyholeMarkup.Script.Reading
open KeyholeMarkup.Text KeyholeMarkup.Xml

/-- The text after a token that it begins with. -/
def eat? : List Char → List Char → Option (List Char)
  | [], text => some text
  | _ :: _, [] => none
  | t :: token, c :: text => if t = c then eat? token text else none

/-- The text after the first occurrence of a token. -/
def after? (token : List Char) : List Char → Option (List Char)
  | [] => eat? token []
  | c :: text =>
    match eat? token (c :: text) with
    | some rest => some rest
    | none => after? token text

theorem eat?_append (token rest : List Char) : eat? token (token ++ rest) = some rest := by
  induction token with
  | nil => cases rest <;> rfl
  | cons t token ih => simpa [eat?] using ih

theorem length_of_eat? {token text rest : List Char} (h : eat? token text = some rest) :
    rest.length + token.length = text.length := by
  induction token generalizing text with
  | nil =>
    simp only [eat?, Option.some.injEq] at h
    simp [h]
  | cons t token ih =>
    cases text with
    | nil => simp [eat?] at h
    | cons c text =>
      simp only [eat?] at h
      split at h
      · have shorter := ih h
        simp only [List.length_cons]
        omega
      · simp at h

theorem length_of_eat?_le {token text rest : List Char} (h : eat? token text = some rest) :
    rest.length ≤ text.length := by
  have count := length_of_eat? h
  omega

theorem length_of_eat?_lt {t : Char} {token text rest : List Char}
    (h : eat? (t :: token) text = some rest) : rest.length < text.length := by
  have count := length_of_eat? h
  simp only [List.length_cons] at count
  omega

theorem length_trimLeft_le (text : List Char) : (trimLeft text).length ≤ text.length :=
  (List.dropWhile_suffix _).length_le

/-- A name: the longest run of characters that names may have. -/
def identifier? (text : List Char) : Option (List Char × List Char) :=
  match text.takeWhile continuesIdentifier with
  | [] => none
  | name => some (name, text.dropWhile continuesIdentifier)

theorem length_of_identifier? {text name rest : List Char} (h : identifier? text = some (name, rest)) :
    rest.length < text.length := by
  have parts := List.takeWhile_append_dropWhile (p := continuesIdentifier) (l := text)
  simp only [identifier?] at h
  split at h
  · simp at h
  · rename_i found
    simp only [Option.some.injEq, Prod.mk.injEq] at h
    obtain ⟨rfl, rfl⟩ := h
    have count := congrArg List.length parts
    have positive := List.length_pos_iff.mpr found
    rw [List.length_append] at count
    omega

/-- The number that digits to base sixteen stand for; a plus sign may come first. -/
def codePoint? (digits : List Char) : Option Nat :=
  match (eat? ['+'] digits).getD digits with
  | [] => none
  | digits => digits.foldlM (fun number c => (digitValue? 16 c).map (16 * number + ·)) 0

def escaped? (digits : List Char) : Option Char :=
  (codePoint? digits).bind fun code => if code.isValidChar then some (Char.ofNat code) else none

/-- The number of digits after the letter of an escape, if it is one by code point. -/
def escapeWidth? : Char → Option Nat
  | 'x' => some 2
  | 'u' => some 4
  | 'U' => some 8
  | _ => none

/-- What a letter after a backslash stands for by itself. -/
def unescape : Char → Char
  | 'n' => '\n'
  | 'r' => '\r'
  | 't' => '\t'
  | c => c

/-- The content of a literal after its opening quote, and the text after the closing one. -/
def body? (quote : Char) (text : List Char) : Option (List Char × List Char) :=
  match text with
  | [] => none
  | c :: text =>
    if c = quote then some ([], text)
    else if c ≠ '\\' then (body? quote text).map fun (body, rest) => (c :: body, rest)
    else
      match text with
      | [] => none
      | letter :: text =>
        match escapeWidth? letter with
        | none => (body? quote text).map fun (body, rest) => (unescape letter :: body, rest)
        | some width =>
          match escaped? (text.take width), body? quote (text.drop width) with
          | some c, some (body, rest) => some (c :: body, rest)
          | _, _ => none
termination_by text.length
decreasing_by
  · simp
  · simp only [List.length_cons]
    omega
  · simp only [List.length_cons, List.length_drop]
    omega

theorem length_of_body? {quote : Char} {text body rest : List Char}
    (h : body? quote text = some (body, rest)) : rest.length < text.length := by
  fun_induction body? quote text generalizing body rest with
  | case1 => simp at h
  | case2 text =>
    simp only [Option.some.injEq, Prod.mk.injEq] at h
    simp [h]
  | case3 c text _ _ ih =>
    obtain ⟨⟨inner, tail⟩, found, equal⟩ := Option.map_eq_some_iff.mp h
    have shorter := ih found
    simp only [Prod.mk.injEq] at equal
    simp only [List.length_cons, ← equal.2]
    omega
  | case4 => simp at h
  | case5 c _ _ letter text _ ih =>
    obtain ⟨⟨inner, tail⟩, found, equal⟩ := Option.map_eq_some_iff.mp h
    have shorter := ih found
    simp only [Prod.mk.injEq] at equal
    simp only [List.length_cons, ← equal.2]
    omega
  | case6 c _ _ letter text width _ inner others tail found _ ih =>
    simp only [Option.some.injEq, Prod.mk.injEq] at h
    have shorter := ih found
    simp only [List.length_drop] at shorter
    simp only [List.length_cons, ← h.2]
    omega
  | case7 => simp at h

def isQuote (c : Char) : Bool := c == '\'' || c == '"'

def string? : List Char → Option (List Char × List Char)
  | [] => none
  | c :: text => if isQuote c then body? c text else none

theorem length_of_string? {text body rest : List Char} (h : string? text = some (body, rest)) :
    rest.length < text.length := by
  cases text with
  | nil => simp [string?] at h
  | cons c text =>
    simp only [string?] at h
    split at h
    · have shorter := length_of_body? h
      simp only [List.length_cons]
      omega
    · simp at h

def startsString (text : List Char) : Bool := text.head?.any isQuote

/-- Adjacent literals, which are one string. -/
def strings? (text : List Char) : Option (List Char × List Char) :=
  match found : string? text with
  | none => none
  | some (first, rest) =>
    have := length_of_string? found
    have := length_trimLeft_le rest
    if startsString (trimLeft rest) then
      (strings? (trimLeft rest)).map fun (others, rest) => (first ++ others, rest)
    else some (first, rest)
termination_by text.length

theorem length_of_strings? {text body rest : List Char} (h : strings? text = some (body, rest)) :
    rest.length < text.length := by
  fun_induction strings? text generalizing body rest with
  | case1 => simp at h
  | case2 text first tail found shorter bound _ ih =>
    obtain ⟨⟨others, last⟩, more, equal⟩ := Option.map_eq_some_iff.mp h
    have inner := ih more
    simp only [Prod.mk.injEq] at equal
    rw [← equal.2]
    omega
  | case3 text first tail found shorter =>
    simp only [Option.some.injEq, Prod.mk.injEq] at h
    rw [← h.2]
    exact shorter

def commentToken : List Char := "etree.Comment(".toList

/-- A comment call after its opening parenthesis. Without a string it is the empty comment. -/
def comment? (text : List Char) : Option (Comment × List Char) :=
  match eat? [')'] (trimLeft text) with
  | some rest => some (⟨"", none⟩, rest)
  | none => do
    let (body, rest) ← strings? (trimLeft text)
    let rest ← eat? [')'] (trimLeft rest)
    return (⟨String.ofList body, none⟩, rest)

theorem length_of_comment? {text rest : List Char} {comment : Comment}
    (h : comment? text = some (comment, rest)) : rest.length < text.length := by
  have trimmed := length_trimLeft_le text
  simp only [comment?] at h
  split at h
  · rename_i tail closed
    simp only [Option.some.injEq, Prod.mk.injEq] at h
    have shorter := length_of_eat?_lt closed
    rw [← h.2]
    omega
  · simp only [Option.bind_eq_bind, Option.bind_eq_some_iff, Prod.exists] at h
    obtain ⟨body, tail, found, last, closed, equal⟩ := h
    simp only [Option.pure_def, Option.some.injEq, Prod.mk.injEq] at equal
    have inner := length_of_strings? found
    have outer := length_of_eat?_lt closed
    have skipped := length_trimLeft_le tail
    rw [← equal.2]
    omega

/-- A call that is being read. -/
structure Call where
  uri : String
  /-- The name of the element, from the builder or as the first string. -/
  tag : Option (List Char)
  text : Option (List Char)
  children : List Node
  attributes : List Attribute

inductive Argument
  | text (text : List Char)
  | node (node : Node)
  | attribute (entry : Attribute)

/-- Adds an argument. Strings after the tag are text, which comes before everything else. -/
def Call.add? (call : Call) : Argument → Option Call
  | .text text =>
    match call.tag with
    | none => some { call with tag := some text }
    | some _ =>
      if call.children.isEmpty && call.attributes.isEmpty then
        some { call with text := some (call.text.getD [] ++ text) }
      else none
  | .node node => some { call with children := call.children ++ [node] }
  | .attribute entry => some { call with attributes := call.attributes ++ [entry] }

def Call.element? (call : Call) : Option Element :=
  call.tag.map fun tag =>
    ⟨⟨Name.within (some call.uri) (String.ofList tag), none, [], call.attributes,
      call.text.map String.ofList, none⟩, Content.ofNodes call.children⟩

/-- The tag that may follow the name of a builder, after a point. -/
def tag? (text : List Char) : Option (Option (List Char) × List Char) :=
  match eat? ['.'] text with
  | some rest => (identifier? rest).map fun (tag, rest) => (some tag, rest)
  | none => some (none, text)

/-- The beginning of a call up to its opening parenthesis. -/
def opening? (builders : Builders) (text : List Char) : Option (Call × List Char) := do
  let (identifier, rest) ← identifier? text
  let uri ← builders.uriOf? (String.ofList identifier)
  let (tag, rest) ← tag? rest
  let rest ← eat? ['('] rest
  return (⟨uri, tag, none, [], []⟩, rest)

/-- An attribute in a dictionary, after the opening brace. -/
def dictionary? (text : List Char) : Option (Attribute × List Char) := do
  let (name, rest) ← string? (trimLeft text)
  let rest ← eat? [':'] (trimLeft rest)
  let (value, rest) ← string? (trimLeft rest)
  let rest ← eat? ['}'] (trimLeft rest)
  return (⟨Name.ofClark (String.ofList name), none, String.ofList value⟩, rest)

/-- What stands in the place of an argument: one that is complete, or the beginning of a call. -/
inductive Item
  | argument (argument : Argument)
  | opening (call : Call)

def item? (builders : Builders) (text : List Char) : Option (Item × List Char) :=
  if startsString text then
    (strings? text).map fun (body, rest) => (.argument (.text body), rest)
  else
    match eat? ['*', '*', '{'] text with
    | some rest => (dictionary? rest).map fun (entry, rest) => (.argument (.attribute entry), rest)
    | none =>
      match eat? commentToken text with
      | some rest =>
        (comment? rest).map fun (comment, rest) => (.argument (.node (.comment comment)), rest)
      | none => do
        let (name, rest) ← identifier? text
        match eat? ['='] rest with
        | some rest =>
          let (value, rest) ← string? rest
          return (.argument (.attribute ⟨.plain (String.ofList name), none, String.ofList value⟩),
            rest)
        | none => (opening? builders text).map fun (call, rest) => (.opening call, rest)

theorem length_of_tag? {text rest : List Char} {tag : Option (List Char)}
    (h : tag? text = some (tag, rest)) : rest.length ≤ text.length := by
  simp only [tag?] at h
  split at h
  · rename_i found
    obtain ⟨⟨name, tail⟩, second, same⟩ := Option.map_eq_some_iff.mp h
    have dot := length_of_eat?_lt found
    have shorter := length_of_identifier? second
    simp only [Prod.mk.injEq] at same
    rw [← same.2]
    omega
  · simp only [Option.some.injEq, Prod.mk.injEq] at h
    exact Nat.le_of_eq (congrArg List.length h.2.symm)

theorem length_of_opening? {builders : Builders} {text rest : List Char} {call : Call}
    (h : opening? builders text = some (call, rest)) : rest.length < text.length := by
  simp only [opening?, Option.bind_eq_bind, Option.bind_eq_some_iff, Prod.exists] at h
  obtain ⟨identifier, afterName, named, uri, _, tag, afterTag, tagged, last, closed, equal⟩ := h
  simp only [Option.pure_def, Option.some.injEq, Prod.mk.injEq] at equal
  have first := length_of_identifier? named
  have between := length_of_tag? tagged
  have final := length_of_eat?_lt closed
  rw [← equal.2]
  omega

theorem length_of_dictionary? {text rest : List Char} {entry : Attribute}
    (h : dictionary? text = some (entry, rest)) : rest.length < text.length := by
  simp only [dictionary?, Option.bind_eq_bind, Option.bind_eq_some_iff, Prod.exists] at h
  obtain ⟨name, first, named, second, colon, value, third, valued, last, closed, equal⟩ := h
  simp only [Option.pure_def, Option.some.injEq, Prod.mk.injEq] at equal
  have start := length_trimLeft_le text
  have one := length_of_string? named
  have two := length_of_eat?_lt colon
  have three := length_of_string? valued
  have four := length_of_eat?_lt closed
  have gap := length_trimLeft_le first
  have gap' := length_trimLeft_le second
  have gap'' := length_trimLeft_le third
  rw [← equal.2]
  omega

theorem length_of_item? {builders : Builders} {text rest : List Char} {item : Item}
    (h : item? builders text = some (item, rest)) : rest.length < text.length := by
  simp only [item?] at h
  split at h
  · obtain ⟨⟨body, tail⟩, found, equal⟩ := Option.map_eq_some_iff.mp h
    simp only [Prod.mk.injEq] at equal
    exact equal.2 ▸ length_of_strings? found
  split at h
  · rename_i begun
    obtain ⟨⟨entry, tail⟩, found, equal⟩ := Option.map_eq_some_iff.mp h
    have token := length_of_eat?_le begun
    have shorter := length_of_dictionary? found
    simp only [Prod.mk.injEq] at equal
    rw [← equal.2]
    omega
  split at h
  · rename_i begun
    obtain ⟨⟨comment, tail⟩, found, equal⟩ := Option.map_eq_some_iff.mp h
    have token := length_of_eat?_le begun
    have shorter := length_of_comment? found
    simp only [Prod.mk.injEq] at equal
    rw [← equal.2]
    omega
  simp only [Option.bind_eq_bind, Option.bind_eq_some_iff, Prod.exists] at h
  obtain ⟨name, afterName, named, h⟩ := h
  split at h
  · rename_i sign
    simp only [Option.bind_eq_some_iff, Prod.exists] at h
    obtain ⟨value, tail, found, equal⟩ := h
    simp only [Option.pure_def, Option.some.injEq, Prod.mk.injEq] at equal
    have first := length_of_identifier? named
    have token := length_of_eat?_lt sign
    have shorter := length_of_string? found
    rw [← equal.2]
    omega
  · obtain ⟨⟨call, tail⟩, found, equal⟩ := Option.map_eq_some_iff.mp h
    simp only [Prod.mk.injEq] at equal
    exact equal.2 ▸ length_of_opening? found

mutual

/-- Reads on where an argument or the end of the innermost call is due. -/
def arguments (builders : Builders) (calls : List Call) (call : Call) (text : List Char) :
    Option (Element × List Char) :=
  have := length_trimLeft_le text
  match closed : eat? [')'] (trimLeft text) with
  | some rest =>
    have := length_of_eat?_lt closed
    leave builders calls call rest
  | none =>
    match found : item? builders (trimLeft text) with
    | none => none
    | some (.opening inner, rest) =>
      have := length_of_item? found
      arguments builders (call :: calls) inner rest
    | some (.argument argument, rest) =>
      have := length_of_item? found
      (call.add? argument).bind fun call => proceed builders calls call rest
termination_by (text.length, 0)

/-- Reads on after an argument: a comma or the end of the call follows. -/
def proceed (builders : Builders) (calls : List Call) (call : Call) (text : List Char) :
    Option (Element × List Char) :=
  have := length_trimLeft_le text
  match comma : eat? [','] (trimLeft text) with
  | some rest =>
    have := length_of_eat?_lt comma
    arguments builders calls call rest
  | none =>
    match closed : eat? [')'] (trimLeft text) with
    | some rest =>
      have := length_of_eat?_lt closed
      leave builders calls call rest
    | none => none
termination_by (text.length, 0)

/-- Leaves a call at its end. Its element is an argument of the call around it. -/
def leave (builders : Builders) (calls : List Call) (call : Call) (text : List Char) :
    Option (Element × List Char) :=
  match call.element?, calls with
  | none, _ => none
  | some element, [] => some (element, text)
  | some element, outer :: calls =>
    (outer.add? (.node (.element element))).bind fun outer => proceed builders calls outer text
termination_by (text.length, 1)

end

/-- A call with all that is in it. -/
def call? (builders : Builders) (text : List Char) : Option (Element × List Char) := do
  let (call, rest) ← opening? builders text
  arguments builders [] call rest

def leadingToken : List Char := "doc.addprevious(".toList
def trailingToken : List Char := "doc.addnext(".toList
def printToken : List Char := "print(".toList

/-- A comment call as the argument of a statement, with the parenthesis that ends it. -/
def placed? (text : List Char) : Option (Comment × List Char) := do
  let rest ← eat? commentToken (trimLeft text)
  let (comment, rest) ← comment? rest
  let rest ← eat? [')'] (trimLeft rest)
  return (comment, rest)

theorem length_of_placed? {text rest : List Char} {comment : Comment}
    (h : placed? text = some (comment, rest)) : rest.length < text.length := by
  simp only [placed?, Option.bind_eq_bind, Option.bind_eq_some_iff, Prod.exists] at h
  obtain ⟨first, begun, found, second, read, last, closed, equal⟩ := h
  simp only [Option.pure_def, Option.some.injEq, Prod.mk.injEq] at equal
  have start := length_trimLeft_le text
  have one := length_of_eat?_le begun
  have two := length_of_comment? read
  have three := length_of_eat?_lt closed
  have gap := length_trimLeft_le second
  rw [← equal.2]
  omega

/-- The statements after the root. Every trailing comment is put directly behind the root. -/
def statements (document : Document) (text : List Char) : Option Document :=
  have := length_trimLeft_le text
  match before : eat? leadingToken (trimLeft text) with
  | some rest =>
    have := length_of_eat?_le before
    match found : placed? rest with
    | none => none
    | some (comment, rest) =>
      have := length_of_placed? found
      statements { document with leading := document.leading ++ [comment] } rest
  | none =>
    match behind : eat? trailingToken (trimLeft text) with
    | some rest =>
      have := length_of_eat?_le behind
      match found : placed? rest with
      | none => none
      | some (comment, rest) =>
        have := length_of_placed? found
        statements { document with trailing := comment :: document.trailing } rest
    | none => (eat? printToken (trimLeft text)).map fun _ => document
termination_by text.length

end Reading

/-- The document that a script makes: the value of `doc`, with the comments put beside it. -/
def read? (builders : Builders) (script : String) : Option Xml.Document := do
  let text ← Reading.after? "doc = ".toList script.toList
  let (root, rest) ← Reading.call? builders text
  Reading.statements ⟨[], root, []⟩ rest

end KeyholeMarkup.Script

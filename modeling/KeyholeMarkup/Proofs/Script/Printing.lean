import KeyholeMarkup.Proofs.Script.Layout
import Mathlib.Logic.Basic

/-! A printer of scripts that sees the whole tree. It prints each element by recursion and knows of
its children and attributes beforehand; the emitter, which learns of them only as they come, writes
the same script. Nothing of the emitter is used in printing but the forms of names and literals. -/
namespace KeyholeMarkup.Script
open KeyholeMarkup.Text KeyholeMarkup.Xml

/-- Two spaces for each level. -/
def spaces : Nat → List Char
  | 0 => []
  | depth + 1 => ' ' :: ' ' :: spaces depth

def printLines (lines : List String) : List Char := lines.flatMap fun line => line.toList ++ ['\n']

/-- The imports, one of them for each entry of the table, and the beginning of the assignment. -/
def printHead (builders : Builders) : List Char :=
  printLines (["from __future__ import unicode_literals", "from __future__ import print_function",
      "from lxml import etree"] ++
    (builders.entries.map fun entry =>
      "from pykml.factory import " ++ entry.factory ++ " as " ++ entry.identifier) ++ [""]) ++
  "doc = ".toList

def printTail : List Char :=
  printLines ["print(etree.tostring(etree.ElementTree(doc), ",
    "                     encoding='utf-8', ", "                     xml_declaration=True, ",
    "                     pretty_print=True).decode('utf-8'))"]

/-- The lines of a text that are not blank. -/
def shownLines (text : List Char) : List (List Char) :=
  (text.splitOn '\n').filter fun line => !allBlank line

/-- The slot for a text. Text of several lines is one literal for each line that is not blank, moved
to the right as far as the line is, on lines of their own. -/
def printText (text : List Char) (depth : Nat) : List Char :=
  if text = [] then []
  else if '\n' ∈ text then
    '\n' :: ((shownLines text).flatMap fun line =>
      (line.takeWhile isBlank).map (fun _ => ' ') ++ literal (trim line ++ [' ']) ++ ['\n']) ++
      spaces depth
  else literal text

/-- Whether there is a literal in the slot for a text. -/
def hasText (text : List Char) : Bool :=
  if '\n' ∈ text then !(shownLines text).isEmpty else !text.isEmpty

def printComment (comment : Comment) (depth : Nat) : List Char :=
  "etree.Comment(".toList ++ printText comment.text.toList depth ++ [')']

/-- A statement that places a comment beside the root. -/
def printPlacement (method : String) (comment : Comment) : List Char :=
  "doc.".toList ++ method.toList ++ '(' :: printComment comment 0 ++ [')', '\n']

/-- An attribute as a keyword argument. The name is a string unless it is an identifier and in no
namespace. -/
def printKeyword (entry : Attribute) : List Char :=
  if entry.name.uri.isNone && isIdentifier entry.name.localName then
    entry.name.localName.toList ++ ['='] ++ doubleQuoted entry.value.toList ++ [',']
  else
    "**".toList ++ ['{'] ++ literal entry.name.clark.toList ++ [':', ' '] ++
      literal entry.value.toList ++ ['}'] ++ [',']

def textOf (tag : Tag) : List Char := (tag.text.getD "").toList

/-- What stands between a tag literal and a text literal. Text on lines of its own needs no space. -/
def printSeparator (tag : Tag) : List Char :=
  if isIdentifier tag.name.localName || !hasText (textOf tag) then []
  else if '\n' ∈ textOf tag then [','] else [',', ' ']

/-- Whether a tag literal or a text literal stands before the children and attributes. -/
def printsLiteral (tag : Tag) : Bool := !isIdentifier tag.name.localName || hasText (textOf tag)

/-- A call with its last comma. Without children it goes on behind its opening; the children are
given as printed. -/
def printCall (builder : String) (depth : Nat) (tag : Tag) (inner : Content) (children : List Char) :
    List Char :=
  spaces depth ++ callHead builder tag ++ printSeparator tag ++ printText (textOf tag) depth ++
    match inner with
    | .empty =>
      commaIf (!tag.attributes.isEmpty && printsLiteral tag) ++
        (tag.attributes.flatMap fun entry => [' ', ' '] ++ printKeyword entry ++ ['\n']) ++
        [')', ',', '\n']
    | _ =>
      commaIf (printsLiteral tag) ++ ['\n'] ++ children ++
        (tag.attributes.flatMap fun entry =>
          spaces (depth + 1) ++ printKeyword entry ++ ['\n']) ++
        spaces depth ++ [')', ',', '\n']

/-- The children of an element one after the other, each from its indent to its line break. -/
def printContent (builders : Builders) (depth : Nat) : Content → List Char
  | .empty => []
  | .comment entry rest =>
    spaces depth ++ printComment entry depth ++ [',', '\n'] ++ printContent builders depth rest
  | .element tag inner rest =>
    printCall (builders.builderOf tag) depth tag inner (printContent builders (depth + 1) inner) ++
      printContent builders depth rest

def printElement (builders : Builders) (depth : Nat) (element : Element) : List Char :=
  printCall (builders.builderOf element.tag) depth element.tag element.content
    (printContent builders (depth + 1) element.content)

theorem spaces_eq (depth : Nat) : spaces depth = indentAt depth := by
  induction depth with
  | zero => rfl
  | succ depth ih => rw [spaces, ih]; rfl

theorem spaces_succ (depth : Nat) : spaces (depth + 1) = spaces depth ++ [' ', ' '] := by
  rw [spaces_eq, spaces_eq, indentAt, Nat.mul_succ, ← List.replicate_append_replicate]
  rfl

theorem printLines_append (first second : List String) :
    printLines (first ++ second) = printLines first ++ printLines second := List.flatMap_append

theorem printHead_eq (builders : Builders) : printHead builders = preamble builders := by
  have fixed : printLines ["from __future__ import unicode_literals",
      "from __future__ import print_function", "from lxml import etree"] =
      "from __future__ import unicode_literals\n".toList ++
        "from __future__ import print_function\n".toList ++ "from lxml import etree\n".toList := by
    simp [printLines]
  have imports : printLines (builders.entries.map fun entry =>
      "from pykml.factory import " ++ entry.factory ++ " as " ++ entry.identifier) =
      builders.entries.flatMap fun entry => ("from pykml.factory import " ++ entry.factory ++ " as " ++
        entry.identifier ++ "\n").toList := by
    rw [printLines, List.flatMap_map]
    congr
    funext entry
    rw [String.toList_append]
    simp
  have assigned : printLines [""] ++ "doc = ".toList = "\ndoc = ".toList := by simp [printLines]
  rw [printHead, printLines_append, printLines_append, List.append_assoc]
  exact congrArg₂ (· ++ ·) (congrArg₂ (· ++ ·) fixed imports) assigned

theorem printTail_eq : printTail = epilogue := by rfl

theorem pieces_eq_splitOnP (cut : Char → Bool) (text : List Char) :
    pieces cut text = text.splitOnP cut := by
  induction text with
  | nil => rfl
  | cons c rest ih =>
    rw [List.splitOnP_cons_eq_if_modifyHead, pieces, ih]
    split
    · rfl
    · have some := List.splitOnP_ne_nil cut rest
      cases parts : rest.splitOnP cut with
      | nil => exact absurd parts some
      | cons part parts => rfl

theorem lines_eq_splitOn (text : List Char) : lines text = text.splitOn '\n' :=
  pieces_eq_splitOnP _ text

theorem flatMap_lineLiteral (lines : List (List Char)) : lines.flatMap lineLiteral =
    (lines.filter fun line => !allBlank line).flatMap fun line =>
      (line.takeWhile isBlank).map (fun _ => ' ') ++ literal (trim line ++ [' ']) ++ ['\n'] := by
  induction lines with
  | nil => rfl
  | cons line lines ih =>
    rw [List.flatMap_cons, ih, lineLiteral]
    cases blank : allBlank line <;> simp [blank, List.map_const']

theorem printText_eq (text : List Char) (depth : Nat) :
    printText text depth = (Slot.ofText text (indentAt depth)).code := by
  unfold printText Slot.ofText shownLines
  rw [← lines_eq_splitOn, ← flatMap_lineLiteral, spaces_eq]
  by_cases none : text = []
  · simp [none]
  · by_cases several : '\n' ∈ text <;> simp [none, several]

theorem hasText_eq (text indent : List Char) : hasText text = (Slot.ofText text indent).filled := by
  unfold hasText Slot.ofText shownLines
  rw [← lines_eq_splitOn]
  by_cases none : text = []
  · simp [none]
  · by_cases several : '\n' ∈ text
    · have filled : (!((lines text).filter fun line => !allBlank line).isEmpty) =
          (lines text).any fun line => !allBlank line := by
        induction lines text with
        | nil => rfl
        | cons line lines ih => cases blank : allBlank line <;> simp [blank, ← ih]
      simp [none, several, filled]
    · simp [none, several]

theorem printComment_eq (comment : Comment) (depth : Nat) : printComment comment depth =
    commentCall (Slot.ofText comment.text.toList (indentAt depth)) := by
  unfold printComment commentCall
  rw [printText_eq]

theorem printPlacement_eq (method : String) (comment : Comment) :
    printPlacement method comment = placement ("doc." ++ method ++ "(") comment := by
  have outermost : indentAt 0 = [] := rfl
  rw [printPlacement, placement, printComment_eq, outermost]
  simp

theorem printKeyword_eq (entry : Attribute) : printKeyword entry = keywordArgument entry := by
  unfold printKeyword keywordArgument
  cases named : entry.name.uri with
  | none => cases identifier : isIdentifier entry.name.localName <;> simp
  | some uri => simp

theorem argumentLines_eq (indent : List Char) (attributes : List Attribute) :
    argumentLines indent attributes =
      attributes.flatMap fun entry => indent ++ [' ', ' '] ++ printKeyword entry ++ ['\n'] := by
  simp only [argumentLines, printKeyword_eq]

theorem printsLiteral_eq (tag : Tag) (depth : Nat) : printsLiteral tag = hasLiteral tag depth := by
  rw [printsLiteral, hasLiteral, textSlot, hasText_eq]
  rfl

/-- Only text of several lines begins with a line break in its slot. -/
theorem head?_printText_iff {text : List Char} (filled : hasText text = true) (depth : Nat) :
    (printText text depth).head? = some '\n' ↔ '\n' ∈ text := by
  unfold printText
  by_cases several : '\n' ∈ text
  · have some : text ≠ [] := List.ne_nil_of_mem several
    simp [some, several]
  · have some : text ≠ [] := by
      rintro rfl
      simp [hasText] at filled
    have quoted : preferredQuote text ≠ '\n' := by
      unfold preferredQuote
      split <;> decide
    simp [some, several, literal, quoteWith, quoted]

theorem printSeparator_eq (tag : Tag) (depth : Nat) :
    printSeparator tag = separator tag (textSlot tag depth) := by
  have code : (textSlot tag depth).code = printText (textOf tag) depth := (printText_eq _ _).symm
  have filled : (textSlot tag depth).filled = hasText (textOf tag) := (hasText_eq _ _).symm
  rw [printSeparator, separator, code, filled]
  by_cases shown : hasText (textOf tag) = true
  · simp only [head?_printText_iff shown depth]
  · simp [shown]

/-- Commas that the emitter adds to a line afterwards are those that the printer decides on. -/
theorem callText_append (builders : Builders) (depth : Nat) (tag : Tag) (inner : Content)
    (children : List Char) : callText builders depth tag inner children ++ [',', '\n'] =
      printCall (builders.builderOf tag) depth tag inner children := by
  have slot : (textSlot tag depth).code = printText (textOf tag) depth := (printText_eq _ _).symm
  simp only [callText, printCall, opening_eq, hasLiteral_eq, ← printSeparator_eq, ← printsLiteral_eq,
    slot, argumentLines_eq, spaces_succ, ← spaces_eq, List.nil_append]
  rw [Bool.and_comm]
  cases inner <;> simp [Content.isEmpty]

theorem contentLines_eq_printContent (builders : Builders) (content : Content) :
    ∀ depth, contentLines builders depth content = printContent builders depth content := by
  induction content with
  | empty => exact fun _ => rfl
  | comment entry rest ih =>
    intro depth
    rw [contentLines, printContent, ih, printComment_eq, spaces_eq]
  | element tag inner rest ihInner ihRest =>
    intro depth
    rw [contentLines, printContent, ihInner, ihRest, callText_append]

/-- The emitter writes what the recursive printer prints: the imports, the assignment of the root
without its last comma, one statement for each comment beside the root, those after it last one
first, and the lines that print the document. -/
theorem ofDocument_eq_printed (builders : Builders) (document : Xml.Document)
    (covered : builders.Cover document.root.tags) :
    ∃ call, printElement builders 0 document.root = call ++ [',', '\n'] ∧
      ofDocument builders document = .ok (String.ofList (printHead builders ++ call ++ ['\n'] ++
        document.leading.flatMap (printPlacement "addprevious") ++
        document.trailing.reverse.flatMap (printPlacement "addnext") ++ printTail)) := by
  refine ⟨rootCall builders document.root, ?_, ?_⟩
  · rw [printElement, rootCall, contentLines_eq_printContent, callText_append]
  · have before : printPlacement "addprevious" = placement "doc.addprevious(" :=
      funext fun comment => printPlacement_eq "addprevious" comment
    have behind : printPlacement "addnext" = placement "doc.addnext(" :=
      funext fun comment => printPlacement_eq "addnext" comment
    rw [ofDocument_eq_scriptText builders document covered, scriptText, printHead_eq, printTail_eq,
      before, behind]

/-- A tag literal before text on lines of its own, with children, a comment, attributes of both forms
and comments on both sides of the root. -/
def nested : Xml.Document :=
  ⟨[⟨"head", none⟩, ⟨"two\n lines", none⟩],
    ⟨⟨⟨none, "bad-name"⟩, none, [], [⟨⟨some "urn:x", "flag"⟩, none, "1"⟩], some "one\n  it's", none⟩,
      .element ⟨⟨some gxUri, "Tour"⟩, none, [], [⟨.plain "id", none, "t"⟩, ⟨.plain "class", none, "c"⟩],
        none, none⟩ .empty
        (.comment ⟨"inner", none⟩
          (.element ⟨⟨some kmlUri, "name"⟩, none, [], [⟨.plain "id", none, "n"⟩], some "it's", none⟩
            .empty .empty))⟩,
    [⟨"first", none⟩, ⟨"second", none⟩]⟩

def nestedScript : List String :=
  ["from __future__ import unicode_literals",
    "from __future__ import print_function",
    "from lxml import etree",
    "from pykml.factory import KML_ElementMaker as KML",
    "from pykml.factory import ATOM_ElementMaker as ATOM",
    "from pykml.factory import GX_ElementMaker as GX",
    "",
    "doc = KML('bad-name',",
    "'one '",
    "  \"it's \"",
    ",",
    "  GX.Tour(  id=\"t\",",
    "  **\x7b'class': 'c'\x7d,",
    "),",
    "  etree.Comment('inner'),",
    "  KML.name(\"it's\",  id=\"n\",",
    "),",
    "  **\x7b'\x7burn:x\x7dflag': '1'\x7d,",
    ")",
    "doc.addprevious(etree.Comment('head'))",
    "doc.addprevious(etree.Comment(",
    "'two '",
    " 'lines '",
    "))",
    "doc.addnext(etree.Comment('second'))",
    "doc.addnext(etree.Comment('first'))",
    "print(etree.tostring(etree.ElementTree(doc), ",
    "                     encoding='utf-8', ",
    "                     xml_declaration=True, ",
    "                     pretty_print=True).decode('utf-8'))"]

theorem ofDocument_eq_printed_nested :
    Builders.Cover .standard nested.root.tags ∧
    (∃ call, printElement .standard 0 nested.root = call ++ [',', '\n'] ∧
      ofDocument .standard nested = .ok (String.ofList (printHead .standard ++ call ++ ['\n'] ++
        nested.leading.flatMap (printPlacement "addprevious") ++
        nested.trailing.reverse.flatMap (printPlacement "addnext") ++ printTail))) ∧
    ofDocument .standard nested = .ok (String.ofList (printLines nestedScript)) := by
  have covered : Builders.Cover .standard nested.root.tags := by
    unfold Builders.Cover
    decide
  have printed : printHead .standard ++ (printElement .standard 0 nested.root).dropLast.dropLast ++
      ['\n'] ++ nested.leading.flatMap (printPlacement "addprevious") ++
      nested.trailing.reverse.flatMap (printPlacement "addnext") ++ printTail =
        printLines nestedScript := by
    decide +kernel
  obtain ⟨call, element, script⟩ := ofDocument_eq_printed .standard nested covered
  refine ⟨covered, ⟨call, element, script⟩, ?_⟩
  have inner : (printElement .standard 0 nested.root).dropLast.dropLast = call := by
    rw [element]
    simp
  rw [script, ← printed, inner]

end KeyholeMarkup.Script

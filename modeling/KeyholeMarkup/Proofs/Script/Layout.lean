import KeyholeMarkup.Script.Emitter
import KeyholeMarkup.Proofs.Xml.Tree

/-! The layout of a script as a recursion over the tree. Every call stands at the indent of its
depth; the emitter, which sees one event after the other, writes the same text. -/
namespace KeyholeMarkup.Script
open KeyholeMarkup.Text KeyholeMarkup.Xml

/-- The builder that an element is made by. -/
def Builders.builderOf (builders : Builders) (tag : Tag) : String :=
  (builders.resolve tag.name.uri).getD ""

def argumentLines (indent : List Char) (attributes : List Attribute) : List Char :=
  attributes.flatMap fun entry => indent ++ [' ', ' '] ++ keywordArgument entry ++ ['\n']

/-- A comma, if something has to be separated from what follows. -/
def commaIf (needed : Bool) : List Char := if needed then [','] else []

def textSlot (tag : Tag) (depth : Nat) : Slot :=
  Slot.ofText (tag.text.getD "").toList (indentAt depth)

/-- The builder and the tag. A tag that is no identifier is a literal. -/
def callHead (builder : String) (tag : Tag) : List Char :=
  if isIdentifier tag.name.localName then
    builder.toList ++ '.' :: tag.name.localName.toList ++ ['(']
  else builder.toList ++ '(' :: literal tag.name.localName.toList

/-- What stands between a tag literal and a text literal. Text on lines of its own needs no space. -/
def separator (tag : Tag) (slot : Slot) : List Char :=
  if isIdentifier tag.name.localName || !slot.filled then []
  else if slot.code.head? = some '\n' then [','] else [',', ' ']

/-- Whether a tag literal or a text literal stands before the children and attributes. -/
def hasLiteral (tag : Tag) (depth : Nat) : Bool :=
  !isIdentifier tag.name.localName || (textSlot tag depth).filled

/-- The call that makes an element, from its indent to its closing parenthesis. The lines of its
content are given; without content all of it follows the opening directly. -/
def callText (builders : Builders) (depth : Nat) (tag : Tag) (inner : Content) (lines : List Char) :
    List Char :=
  let opening := Opening.ofTag (builders.builderOf tag) tag depth
  if inner.isEmpty then
    opening.code ++ commaIf (opening.argument && !tag.attributes.isEmpty) ++
      argumentLines [] tag.attributes ++ [')']
  else
    opening.code ++ commaIf opening.argument ++ ['\n'] ++ lines ++
      argumentLines (indentAt depth) tag.attributes ++ indentAt depth ++ [')']

theorem hasLiteral_eq (builder : String) (tag : Tag) (depth : Nat) :
    (Opening.ofTag builder tag depth).argument = hasLiteral tag depth := by
  unfold Opening.ofTag hasLiteral textSlot
  cases identifier : isIdentifier tag.name.localName <;> simp

theorem opening_eq (builder : String) (tag : Tag) (depth : Nat) :
    (Opening.ofTag builder tag depth).code = indentAt depth ++ callHead builder tag ++
      separator tag (textSlot tag depth) ++ (textSlot tag depth).code := by
  unfold Opening.ofTag callHead separator textSlot
  cases identifier : isIdentifier tag.name.localName with
  | true => simp
  | false =>
    cases filled : (Slot.ofText (tag.text.getD "").toList (indentAt depth)).filled <;> simp [filled]

/-- The lines of a content at a depth. -/
def contentLines (builders : Builders) (depth : Nat) : Content → List Char
  | .empty => []
  | .comment comment rest =>
    indentAt depth ++ commentCall (Slot.ofText comment.text.toList (indentAt depth)) ++ [',', '\n'] ++
      contentLines builders depth rest
  | .element tag inner rest =>
    callText builders depth tag inner (contentLines builders (depth + 1) inner) ++ [',', '\n'] ++
      contentLines builders depth rest

def rootCall (builders : Builders) (root : Element) : List Char :=
  callText builders 0 root.tag root.content (contentLines builders 1 root.content)

def placement (method : String) (comment : Comment) : List Char :=
  method.toList ++ commentCall (Slot.ofText comment.text.toList []) ++ [')', '\n']

/-- The script of a document. Of the trailing comments the last one comes first. -/
def scriptText (builders : Builders) (document : Document) : List Char :=
  preamble builders ++ rootCall builders document.root ++ ['\n'] ++
    document.leading.flatMap (placement "doc.addprevious(") ++
    document.trailing.reverse.flatMap (placement "doc.addnext(") ++ epilogue

/-- Every element is in a namespace that has a builder. -/
def Builders.Cover (builders : Builders) (tags : List Tag) : Prop :=
  ∀ tag ∈ tags, (builders.resolve tag.name.uri).isSome

theorem Builders.Cover.resolve {builders : Builders} {tags : List Tag} (covered : builders.Cover tags)
    {tag : Tag} (member : tag ∈ tags) :
    builders.resolve tag.name.uri = some (builders.builderOf tag) := by
  obtain ⟨builder, found⟩ := Option.isSome_iff_exists.mp (covered tag member)
  rw [Builders.builderOf, found]
  rfl

namespace Emitter

theorem run_append (emitter : Emitter) (first second : List Event) :
    emitter.run (first ++ second) = (emitter.run first).bind fun after => after.run second := by
  induction first generalizing emitter with
  | nil => rfl
  | cons event events ih =>
    simp only [List.cons_append, run]
    split
    · rfl
    · exact ih _

/-- What ends the line of an opening before a child: a comma behind an argument and a line feed. -/
def pendingLine (emitter : Emitter) : List Char :=
  if emitter.atOpening then commaIf (emitter.calls.head?.getD false) ++ ['\n'] else []

/-- An emitter that has written more, at the same depth and in a given stage. -/
structure Wrote (before after : Emitter) (stage : Stage) (added : List Char) (atOpening : Bool) :
    Prop where
  text : after.text = before.text ++ added
  builders : after.builders = before.builders
  stage : after.stage = stage
  calls : after.calls = before.calls
  leading : after.leading = before.leading
  trailing : after.trailing = before.trailing
  atOpening : after.atOpening = atOpening

theorem Wrote.trans {first second third : Emitter} {stage stage' : Stage} {one two : List Char}
    {line line' : Bool} (h : Wrote first second stage one line)
    (h' : Wrote second third stage' two line') : Wrote first third stage' (one ++ two) line' := by
  refine ⟨?_, h'.builders.trans h.builders, h'.stage, h'.calls.trans h.calls,
    h'.leading.trans h.leading, h'.trailing.trans h.trailing, h'.atOpening⟩
  rw [h'.text, h.text, List.append_assoc]

theorem Wrote.depth {before after : Emitter} {stage : Stage} {added : List Char} {line : Bool}
    (h : Wrote before after stage added line) : after.depth = before.depth :=
  congrArg List.length h.calls

theorem wrote_write {before after : Emitter} {stage : Stage} {added : List Char} {line : Bool}
    (h : Wrote before after stage added line) (part : List Char) :
    Wrote before (after.write part) stage (added ++ part) line := by
  refine ⟨?_, h.builders, h.stage, h.calls, h.leading, h.trailing, h.atOpening⟩
  rw [text_write, h.text, List.append_assoc]

theorem wrote_endLine (emitter : Emitter) :
    Wrote emitter emitter.separate.endLine emitter.stage emitter.pendingLine false := by
  obtain ⟨builders, written, stage, calls, atOpening, leading, trailing⟩ := emitter
  cases atOpening with
  | false => exact ⟨(List.append_nil _).symm, rfl, rfl, rfl, rfl, rfl, rfl⟩
  | true =>
    cases argument : calls.head?.getD false <;>
      constructor <;> simp [separate, endLine, pendingLine, argument, write, commaIf, text]

theorem wrote_remark (emitter : Emitter) (comment : Comment) (inside : emitter.calls ≠ []) :
    Wrote emitter (emitter.remark comment) emitter.stage (emitter.pendingLine ++
      (indentAt emitter.depth ++
        commentCall (Slot.ofText comment.text.toList (indentAt emitter.depth)) ++ [',', '\n'])) false := by
  have some : emitter.calls.isEmpty = false := by simpa using inside
  unfold remark
  rw [if_neg (by simp [some])]
  exact wrote_write (wrote_endLine emitter) _

/-- The emitter just after a call has been opened in it. -/
structure Opened (before after : Emitter) (opening : Opening) : Prop where
  text : after.text = before.text ++ before.pendingLine ++ opening.code
  builders : after.builders = before.builders
  stage : after.stage = .inTree
  calls : after.calls = opening.argument :: before.calls
  leading : after.leading = before.leading
  trailing : after.trailing = before.trailing
  atOpening : after.atOpening = true

theorem separate_builders (emitter : Emitter) : emitter.separate.builders = emitter.builders := by
  unfold separate
  split <;> rfl

theorem separate_calls (emitter : Emitter) : emitter.separate.calls = emitter.calls := by
  unfold separate
  split <;> rfl

theorem opened_enter (emitter : Emitter) (element : Element) (builder : String)
    (resolved : emitter.builders.resolve element.tag.name.uri = some builder) :
    ∃ after, emitter.enter element = (after, none) ∧
      Opened emitter after (Opening.ofTag builder element.tag emitter.depth) := by
  have ended := wrote_endLine emitter
  have depth : emitter.separate.depth = emitter.depth := congrArg List.length (separate_calls emitter)
  simp only [enter, Element.name, separate_builders, resolved, depth]
  refine ⟨_, rfl, ?_, ended.builders, rfl, ?_, ended.leading, ended.trailing, rfl⟩
  · change (emitter.separate.endLine.write _).text = _
    rw [text_write, ended.text]
  · change _ :: emitter.separate.endLine.calls = _
    rw [ended.calls]

/-- The text of a content as it follows an opening or an earlier child. -/
def following (emitter : Emitter) (content : Content) : List Char :=
  if content.isEmpty then []
  else emitter.pendingLine ++ contentLines emitter.builders emitter.depth content

/-- The end of a call: its attributes, directly behind the opening if nothing has come between. -/
theorem wrote_leave {before opened inside : Emitter} {tag : Tag} {inner : Content}
    (start : Opened before opened (Opening.ofTag (before.builders.builderOf tag) tag before.depth))
    (visited : Wrote opened inside .inTree (opened.following inner) inner.isEmpty) :
    Wrote before (inside.leave ⟨tag, inner⟩)
      (if before.calls.isEmpty then .afterRoot else .inTree)
      (before.pendingLine ++ (callText before.builders before.depth tag inner
        (contentLines before.builders (before.depth + 1) inner) ++ [',', '\n'])) false := by
  have calls := visited.calls.trans start.calls
  have depth : opened.depth = before.depth + 1 := by
    rw [Emitter.depth, start.calls]
    rfl
  have line : opened.pendingLine =
      commaIf (Opening.ofTag (before.builders.builderOf tag) tag before.depth).argument ++ ['\n'] := by
    rw [pendingLine, start.atOpening, start.calls]
    rfl
  unfold leave
  simp only [calls]
  refine ⟨?_, visited.builders.trans start.builders, ?_, rfl, visited.leading.trans start.leading,
    visited.trailing.trans start.trailing, rfl⟩
  · change (inside.write _).text = _
    rw [text_write, visited.text, start.text, visited.atOpening, following, callText, depth, line,
      start.builders]
    cases inner.isEmpty <;> simp [argumentLines, commaIf, Emitter.depth]
  · change (if before.calls.isEmpty then Stage.afterRoot else inside.stage) = _
    rw [visited.stage]

theorem run_element {before : Emitter} {tag : Tag} (inner : Content)
    (resolved : before.builders.resolve tag.name.uri = some (before.builders.builderOf tag))
    (visit : ∀ opened : Emitter, opened.calls ≠ [] → opened.stage = .inTree →
      opened.builders = before.builders →
      ∃ after, opened.run inner.events = .ok after ∧
        Wrote opened after .inTree (opened.following inner) (opened.atOpening && inner.isEmpty)) :
    ∃ after, before.run (Element.events ⟨tag, inner⟩) = .ok after ∧
      Wrote before after (if before.calls.isEmpty then .afterRoot else .inTree)
        (before.pendingLine ++ (callText before.builders before.depth tag inner
          (contentLines before.builders (before.depth + 1) inner) ++ [',', '\n'])) false := by
  obtain ⟨opened, entered, start⟩ := opened_enter before ⟨tag, inner⟩ _ resolved
  have inside : opened.calls ≠ [] := by simp [start.calls]
  obtain ⟨after, ran, visited⟩ := visit opened inside start.stage start.builders
  rw [start.atOpening, Bool.true_and] at visited
  refine ⟨after.leave ⟨tag, inner⟩, ?_, wrote_leave start visited⟩
  simp only [Element.events, List.cons_append, run, emit, entered]
  rw [run_append, ran]
  rfl

theorem following_eq {emitter : Emitter} (ended : emitter.atOpening = false) (content : Content) :
    emitter.following content = contentLines emitter.builders emitter.depth content := by
  have pending : emitter.pendingLine = [] := by
    rw [pendingLine, ended]
    rfl
  cases content <;> simp [following, pending, Content.isEmpty, contentLines]

theorem run_content (emitter : Emitter) (content : Content) (inside : emitter.calls ≠ [])
    (stage : emitter.stage = .inTree) (covered : emitter.builders.Cover content.tags) :
    ∃ after, emitter.run content.events = .ok after ∧
      Wrote emitter after .inTree (emitter.following content)
        (emitter.atOpening && content.isEmpty) := by
  induction content generalizing emitter with
  | empty =>
    exact ⟨emitter, rfl, (List.append_nil _).symm, rfl, stage, rfl, rfl, rfl, by simp [Content.isEmpty]⟩
  | comment comment rest ih =>
    have first := wrote_remark emitter comment inside
    obtain ⟨after, ran, others⟩ := ih (emitter.remark comment) (by rw [first.calls]; exact inside)
      (first.stage.trans stage) (by rw [first.builders]; exact covered)
    have whole := first.trans others
    rw [following_eq first.atOpening, first.builders, first.depth, first.atOpening] at whole
    refine ⟨after, ran, ?_⟩
    simpa [following, Content.isEmpty, contentLines] using whole
  | element tag inner rest ihInner ihRest =>
    have resolved :=
      covered.resolve (show tag ∈ (Content.element tag inner rest).tags by simp [Content.tags])
    obtain ⟨middle, entered, first⟩ := run_element inner resolved
      fun opened inside stage builders => ihInner opened inside stage
        (by rw [builders]; exact fun other member => covered other (by simp [Content.tags, member]))
    have around : emitter.calls.isEmpty = false := by simpa using inside
    rw [around] at first
    obtain ⟨after, ran, others⟩ := ihRest middle (by rw [first.calls]; exact inside) first.stage
      (by rw [first.builders]; exact fun other member => covered other (by simp [Content.tags, member]))
    have whole := first.trans others
    rw [following_eq first.atOpening, first.builders, first.depth, first.atOpening] at whole
    refine ⟨after, ?_, ?_⟩
    · have events : (Content.element tag inner rest).events =
          Element.events ⟨tag, inner⟩ ++ rest.events := by
        simp [Content.events, Element.events]
      rw [events, run_append, entered]
      exact ran
    · simpa [following, Content.isEmpty, contentLines] using whole

def rootCalls (comments : List Comment) : List (List Char) :=
  comments.map fun comment => commentCall (Slot.ofText comment.text.toList [])

def keep (emitter : Emitter) (calls : List (List Char)) : Emitter :=
  match emitter.stage with
  | .beforeRoot => { emitter with leading := calls.reverse ++ emitter.leading }
  | _ => { emitter with trailing := calls.reverse ++ emitter.trailing }

theorem keep_calls (emitter : Emitter) (calls : List (List Char)) :
    (emitter.keep calls).calls = emitter.calls := by
  unfold keep
  split <;> rfl

theorem keep_keep (emitter : Emitter) (first second : List (List Char)) :
    (emitter.keep first).keep second = emitter.keep (first ++ second) := by
  cases stage : emitter.stage <;> simp [keep, stage]

theorem remark_outside (emitter : Emitter) (comment : Comment) (outside : emitter.calls = []) :
    emitter.remark comment = emitter.keep (rootCalls [comment]) := by
  cases stage : emitter.stage <;>
    simp [remark, keep, rootCalls, outside, stage, Emitter.depth, indentAt]

theorem run_comments (emitter : Emitter) (comments : List Comment) (outside : emitter.calls = []) :
    emitter.run (comments.map .comment) = .ok (emitter.keep (rootCalls comments)) := by
  induction comments generalizing emitter with
  | nil =>
    obtain ⟨builders, written, stage, calls, atOpening, leading, trailing⟩ := emitter
    cases stage <;> rfl
  | cons comment comments ih =>
    have rest := ih (emitter.keep (rootCalls [comment])) (by rw [keep_calls]; exact outside)
    rw [keep_keep] at rest
    simp only [List.map_cons, run, emit, remark_outside _ _ outside]
    exact rest

theorem dropComma_append (text : List Char) : dropComma (text ++ [',', '\n']) = text ++ ['\n'] := by
  simp [dropComma]

theorem finish_eq {emitter : Emitter} {text : List Char} (stage : emitter.stage = .afterRoot)
    (line : emitter.atOpening = false) (written : emitter.text = text ++ [',', '\n']) :
    emitter.finish = .ok (text ++ ['\n'] ++
      (emitter.leading.reverse.flatMap fun call => "doc.addprevious(".toList ++ call ++ [')', '\n']) ++
      (emitter.trailing.flatMap fun call => "doc.addnext(".toList ++ call ++ [')', '\n']) ++
      epilogue) := by
  have ended : emitter.endLine = emitter := by
    rw [endLine, line]
    rfl
  simp only [finish, stage, ended, written, dropComma_append]

/-- The events of a document write the call of its root and keep the comments beside it. -/
theorem run_document (builders : Builders) (document : Xml.Document)
    (covered : builders.Cover document.root.tags) :
    ∃ after, (start builders).run document.events = .ok after ∧ after.stage = .afterRoot ∧
      after.atOpening = false ∧
      after.text = preamble builders ++ rootCall builders document.root ++ [',', '\n'] ∧
      after.leading = (rootCalls document.leading).reverse ∧
      after.trailing = (rootCalls document.trailing).reverse := by
  obtain ⟨leading, ⟨tag, content⟩, trailing⟩ := document
  have before := run_comments (start builders) leading rfl
  generalize ready_eq : (start builders).keep (rootCalls leading) = ready at before
  have same : ready.builders = builders := by rw [← ready_eq]; rfl
  have resolved : ready.builders.resolve tag.name.uri = some (ready.builders.builderOf tag) := by
    rw [same]
    exact covered.resolve (by simp [Element.tags])
  obtain ⟨middle, entered, whole⟩ := run_element content resolved
    fun opened inside stage other => run_content opened content inside stage (by
      rw [other, same]
      exact fun inner member => covered inner (by simp [Element.tags, member]))
  have outside : middle.calls = [] := by rw [whole.calls, ← ready_eq]; rfl
  have stage : middle.stage = .afterRoot := by rw [whole.stage, ← ready_eq]; rfl
  have kept : middle.keep (rootCalls trailing) =
      { middle with trailing := (rootCalls trailing).reverse ++ middle.trailing } := by
    simp [keep, stage]
  refine ⟨middle.keep (rootCalls trailing), ?_, ?_, ?_, ?_, ?_, ?_⟩
  · rw [Document.events, run_append, run_append, before]
    change ((ready.run _).bind _) = _
    rw [entered]
    exact run_comments middle trailing outside
  · rw [kept]
    exact stage
  · rw [kept]
    exact whole.atOpening
  · rw [kept]
    change middle.text = _
    rw [whole.text, ← ready_eq]
    simp [text, start, keep, pendingLine, depth, rootCall]
  · rw [kept]
    change middle.leading = _
    rw [whole.leading, ← ready_eq]
    exact List.append_nil _
  · rw [kept]
    change _ ++ middle.trailing = _
    rw [whole.trailing, ← ready_eq]
    exact List.append_nil _

end Emitter

theorem flatMap_placement (method : String) (comments : List Comment) :
    comments.flatMap (placement method) =
      (Emitter.rootCalls comments).flatMap fun call => method.toList ++ call ++ [')', '\n'] := by
  rw [Emitter.rootCalls, List.flatMap_map]
  rfl

/-- The emitter writes the script that the recursion over the document gives. -/
theorem ofDocument_eq_scriptText (builders : Builders) (document : Xml.Document)
    (covered : builders.Cover document.root.tags) :
    ofDocument builders document = .ok (String.ofList (scriptText builders document)) := by
  obtain ⟨after, ran, stage, line, text, leading, trailing⟩ :=
    Emitter.run_document builders document covered
  have finished : after.finish = .ok (scriptText builders document) := by
    rw [Emitter.finish_eq stage line text, leading, trailing, List.reverse_reverse, scriptText,
      flatMap_placement, flatMap_placement, Emitter.rootCalls, Emitter.rootCalls, ← List.map_reverse]
    rfl
  simp only [ofDocument, ofEvents, ran]
  change (Except.bind (Emitter.finish _) _) = _
  rw [finished]
  rfl

end KeyholeMarkup.Script

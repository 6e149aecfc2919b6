import KeyholeMarkup.Proofs.Xml.Settled
import KeyholeMarkup.Proofs.Xml.Stream
import KeyholeMarkup.Proofs.Xml.TokenText

/-! Where a document comes from. Each of its tags is that of a token, read in the scope of the tag
around it; its texts and comments are such as can stand in a document. -/
namespace KeyholeMarkup.Xml
open KeyholeMarkup.Source KeyholeMarkup.Text

/-- What stands in a tag that opens an element. -/
def Token.tagContent? : Token → Option (List Char)
  | .opening content | .selfClosing content => some content
  | _ => none

/-- A content that is read in a scope from tags that meet a condition. -/
inductive Content.ReadFrom (tags : List Char → Prop) : Scope → Content → Prop
  | empty {scope} : ReadFrom tags scope .empty
  | comment {scope entry rest} : entry.Fits → ReadFrom tags scope rest →
    ReadFrom tags scope (.comment entry rest)
  | element {scope within content tag inner rest} : tags content →
    scope.enter content = .ok within → tag.OpenedBy within content → tag.TextKept inner →
    ReadFrom tags within inner → ReadFrom tags scope rest →
    ReadFrom tags scope (.element tag inner rest)

def Node.ReadFrom (tags : List Char → Prop) (scope : Scope) (node : Node) : Prop :=
  (Content.cons node .empty).ReadFrom tags scope

/-- A document that is read from tags that meet a condition. -/
structure Document.ReadFrom (tags : List Char → Prop) (document : Document) : Prop where
  leading : ∀ entry ∈ document.leading, entry.Fits
  root : Node.ReadFrom tags Scope.predefined (.element document.root)
  trailing : ∀ entry ∈ document.trailing, entry.Fits

variable {tags : List Char → Prop}

theorem readFrom_cons {scope : Scope} {node : Node} {content : Content}
    (first : node.ReadFrom tags scope) (others : content.ReadFrom tags scope) :
    (Content.cons node content).ReadFrom tags scope := by
  cases node with
  | comment entry =>
    cases first with
    | comment fits _ => exact .comment fits others
  | element child =>
    cases first with
    | element given entered opened kept inner _ =>
      exact .element given entered opened kept inner others

theorem readFrom_ofNodes {scope : Scope} {nodes : List Node}
    (each : ∀ node ∈ nodes, node.ReadFrom tags scope) :
    (Content.ofNodes nodes).ReadFrom tags scope := by
  induction nodes with
  | nil => exact .empty
  | cons node others ih =>
    exact readFrom_cons (each node (by simp)) (ih fun other member => each other (by simp [member]))

theorem fits_of_comment {raw : List Char} (closed : ¬ ['-', '-', '>'] <:+: raw)
    (span : Option Span) : Comment.Fits ⟨String.ofList (normalizeLineEnds raw), span⟩ := by
  refine ⟨?_, ?_⟩
  · rw [String.toList_ofList]
    exact not_mem_normalizeLineEnds raw
  · rw [String.toList_ofList]
    exact mt (infix_of_normalizeLineEnds (by decide)) closed

theorem OpenElement.textKept_close (element : OpenElement) (span : Span) :
    (element.close span).tag.TextKept (element.close span).content := by
  intro text given
  change element.keptText = some text at given
  unfold keptText at given
  split at given
  · contradiction
  split at given
  · contradiction
  rename_i characters _ kept
  obtain rfl : String.ofList characters = text := by simpa using given
  simp only [Bool.or_eq_true, List.isEmpty_iff, Bool.and_eq_true, Bool.not_eq_true',
    not_or, not_and] at kept
  refine ⟨by simpa using kept.1, fun filled => ?_⟩
  have followed : element.children ≠ [] := by
    intro childless
    apply filled
    rw [close, childless]
    rfl
  rw [String.toList_ofList]
  simpa using kept.2 (by simpa using followed)

namespace Reader

/-- The scope inside the innermost of some open elements. -/
def scopeOf : List OpenElement → Scope
  | [] => Scope.predefined
  | element :: _ => element.scope

/-- Open elements, innermost first, each opened by a tag in the scope of the next. -/
inductive OpenedFrom (tags : List Char → Prop) : List OpenElement → Prop
  | nil : OpenedFrom tags []
  | cons {element outer content} : tags content →
    (scopeOf outer).enter content = .ok element.scope →
    element.tag.OpenedBy element.scope content →
    (∀ node ∈ element.children, node.ReadFrom tags element.scope) →
    OpenedFrom tags outer → OpenedFrom tags (element :: outer)

structure ReadFrom (tags : List Char → Prop) (reader : Reader) : Prop where
  path : OpenedFrom tags reader.path
  leading : ∀ entry ∈ reader.leading, entry.Fits
  root : ∀ root, reader.root = some root → Node.ReadFrom tags Scope.predefined (.element root)
  trailing : ∀ entry ∈ reader.trailing, entry.Fits

variable {reader after : Reader}

theorem scope_eq (reader : Reader) : reader.scope = scopeOf reader.path := by
  unfold Reader.scope scopeOf
  cases reader.path <;> rfl

theorem OpenedFrom.tail {element : OpenElement} {outer : List OpenElement}
    (opened : OpenedFrom tags (element :: outer)) : OpenedFrom tags outer := by
  cases opened with
  | cons _ _ _ _ others => exact others

/-- An open element becomes a node in the scope around it. -/
theorem OpenedFrom.close {element : OpenElement} {outer : List OpenElement}
    (opened : OpenedFrom tags (element :: outer)) (span : Span) :
    Node.ReadFrom tags (scopeOf outer) (.element (element.close span)) := by
  cases opened with
  | cons given entered tag children _ =>
    have closed : (element.close span).tag.OpenedBy element.scope _ :=
      ⟨tag.name, tag.nsPrefix, tag.entries, tag.complete⟩
    refine .element given entered closed (element.textKept_close span) ?_ .empty
    exact readFrom_ofNodes fun node member => children node (List.mem_reverse.mp member)

theorem Opened.openedFrom {content : List Char} {start : Nat} {element : OpenElement}
    (opened : reader.Opened content start element) (given : tags content)
    (outer : OpenedFrom tags reader.path) : OpenedFrom tags (element :: reader.path) := by
  refine .cons given ?_ opened.openedBy ?_ outer
  · rw [← scope_eq]
    exact opened.scope
  · simp [opened.children]

theorem ReadFrom.attach (known : reader.ReadFrom tags) {node : Node}
    (fits : node.ReadFrom tags (scopeOf reader.path)) : (reader.attach node).ReadFrom tags := by
  obtain ⟨file, path, leading, trailing, root, warnings⟩ := reader
  obtain ⟨opened, leadingFit, rootFrom, trailingFit⟩ := known
  cases path with
  | cons parent outer =>
    cases opened with
    | cons given entered tag children others =>
      refine ⟨.cons given entered tag ?_ others, leadingFit, rootFrom, trailingFit⟩
      exact List.forall_mem_cons.mpr ⟨fits, children⟩
  | nil =>
    cases node with
    | element child =>
      refine ⟨.nil, leadingFit, ?_, trailingFit⟩
      rintro _ ⟨⟩
      exact fits
    | comment entry =>
      cases fits with
      | comment entryFits _ =>
        cases root with
        | none =>
          exact ⟨.nil, List.forall_mem_cons.mpr ⟨entryFits, leadingFit⟩, rootFrom, trailingFit⟩
        | some closed =>
          exact ⟨.nil, leadingFit, rootFrom, List.forall_mem_cons.mpr ⟨entryFits, trailingFit⟩⟩

theorem Retold.readFrom (retold : Retold reader after) (known : reader.ReadFrom tags) :
    after.ReadFrom tags := by
  refine ⟨?_, retold.leading ▸ known.leading, retold.root ▸ known.root,
    retold.trailing ▸ known.trailing⟩
  obtain same | ⟨element, outer, text, inside, same⟩ := retold.path
  · rw [same]
    exact known.path
  · have opened := known.path
    rw [inside] at opened
    rw [same]
    cases opened with
    | cons given entered tag children others => exact .cons given entered tag children others

/-- A step adds what its token says. -/
theorem Stepped.readFrom {lexeme : Lexeme} (stepped : reader.Stepped lexeme after)
    (given : ∀ content, lexeme.token.tagContent? = some content → tags content)
    (closed : ∀ raw, lexeme.token = .comment raw → ¬ ['-', '-', '>'] <:+: raw)
    (known : reader.ReadFrom tags) : after.ReadFrom tags := by
  cases stepped with
  | opening opened =>
    exact ⟨opened.openedFrom (given _ rfl) known.path, known.leading, known.root, known.trailing⟩
  | selfClosing opened =>
    exact known.attach ((opened.openedFrom (given _ rfl) known.path).close _)
  | @closing _ _ _ outer inside =>
    have opened := inside ▸ known.path
    have left : ReadFrom tags { reader with path := outer } :=
      ⟨opened.tail, known.leading, known.root, known.trailing⟩
    exact left.attach (opened.close _)
  | comment => exact known.attach (.comment (fits_of_comment (closed _ rfl) _) .empty)
  | characters _ told => exact told.retold.readFrom known
  | other => exact known

theorem Steps.readFrom {lexemes : List Lexeme} (steps : Steps reader lexemes after)
    (given : ∀ lexeme ∈ lexemes, ∀ content, lexeme.token.tagContent? = some content → tags content)
    (closed : ∀ lexeme ∈ lexemes, ∀ raw, lexeme.token = .comment raw →
      ¬ ['-', '-', '>'] <:+: raw)
    (known : reader.ReadFrom tags) : after.ReadFrom tags := by
  induction steps with
  | nil => exact known
  | cons _ stepped _ ih =>
    have first := stepped.readFrom (given _ List.mem_cons_self) (closed _ List.mem_cons_self) known
    exact ih (fun lexeme member => given lexeme (List.mem_cons_of_mem _ member))
      (fun lexeme member => closed lexeme (List.mem_cons_of_mem _ member)) first

theorem readFrom_initial (file : Nat) : (initial file).ReadFrom tags :=
  ⟨.nil, by simp [initial], by simp [initial], by simp [initial]⟩

end Reader

/-- A document that has been read is read from the tags of its text. -/
theorem readFrom_of_parse {file : Nat} {text : String} {document : Document}
    (parsed : parse file text = .ok document)
    (given : ∀ lexeme ∈ (Lexemes.ofText (withoutMark text.toList)).lexemes, ∀ content,
      lexeme.token.tagContent? = some content → tags content) : document.ReadFrom tags := by
  obtain ⟨after, steps, ended, -⟩ := Reader.steps_of_read parsed
  have closed : ∀ lexeme ∈ (Lexemes.ofText (withoutMark text.toList)).lexemes, ∀ raw,
      lexeme.token = .comment raw → ¬ ['-', '-', '>'] <:+: raw := by
    rintro ⟨token, start, stop⟩ member raw rfl
    exact Lexemes.not_infix_of_comment member
  obtain ⟨-, leading, root, trailing⟩ := steps.readFrom given closed (Reader.readFrom_initial file)
  obtain ⟨-, leadingHeld, rootHeld, trailingHeld⟩ := Reader.held_of_document ended
  refine ⟨?_, root _ rootHeld, ?_⟩
  · rw [← leadingHeld]
    exact fun entry member => leading entry (List.mem_reverse.mp member)
  · rw [← trailingHeld]
    exact fun entry member => trailing entry (List.mem_reverse.mp member)

end KeyholeMarkup.Xml

import KeyholeMarkup.Proofs.Xml.Presentation
import KeyholeMarkup.Proofs.Xml.RestyledTags
import KeyholeMarkup.Proofs.Xml.RestyledTokens

/-! Reading a text with other line ends. The same document is read, but for positions, or reading
fails with an error of the same kind. -/
namespace KeyholeMarkup.Xml
open KeyholeMarkup.Source KeyholeMarkup.Text

inductive Error.Kind
  | syntaxFault
  | unexpectedEnd
  | mismatchedEnd
  | structureFault
  | emptyDocument
  | multipleRoots
  | unknownPrefix
  | writeFault
deriving DecidableEq, Repr

/-- An error without its wording and its place. -/
def Error.kind : Error → Kind
  | .syntaxFault .. => .syntaxFault
  | .unexpectedEnd .. => .unexpectedEnd
  | .mismatchedEnd .. => .mismatchedEnd
  | .structureFault .. => .structureFault
  | .emptyDocument => .emptyDocument
  | .multipleRoots _ => .multipleRoots
  | .unknownPrefix .. => .unknownPrefix
  | .writeFault _ => .writeFault

/-- Two outcomes that are both results, which are related, or both errors of one kind. -/
inductive SameOutcome {α β : Type} (related : α → β → Prop) : Except Error α → Except Error β → Prop
  | ok {first second} : related first second → SameOutcome related (.ok first) (.ok second)
  | error {first second} : first.kind = second.kind →
    SameOutcome related (.error first) (.error second)

theorem SameOutcome.bind {α β γ δ : Type} {related : α → β → Prop} {after : γ → δ → Prop}
    {first : Except Error α} {second : Except Error β} {next : α → Except Error γ}
    {nextToo : β → Except Error δ} (outcome : SameOutcome related first second)
    (goesOn : ∀ a b, related a b → SameOutcome after (next a) (nextToo b)) :
    SameOutcome after (first >>= next) (second >>= nextToo) := by
  cases outcome with
  | ok same => exact goesOn _ _ same
  | error kind => exact .error kind

def Node.unplaced : Node → Node
  | .comment entry => .comment entry.unplaced
  | .element inner => .element inner.unplaced

theorem Content.unplaced_ofNodes (nodes : List Node) :
    (ofNodes nodes).unplaced = ofNodes (nodes.map Node.unplaced) := by
  induction nodes with
  | nil => rfl
  | cons node nodes ih =>
    cases node with
    | comment entry => exact congrArg (Content.comment entry.unplaced) ih
    | element element =>
      exact congrArg (Content.element element.tag.unplaced element.content.unplaced) ih

theorem Element.bare_unplaced (element : Element) : element.unplaced.bare = element.bare := by
  simp only [bare, unplaced, Content.bare_unplaced]
  rfl

namespace OpenElement

def unplaced (element : OpenElement) : OpenElement :=
  { element with start := 0, children := element.children.map Node.unplaced }

/-- Open elements that differ in positions only. Their names have no blanks. -/
structure Alike (first second : OpenElement) : Prop where
  same : first.unplaced = second.unplaced
  dense : ∀ c ∈ first.written, isSpace c = false

theorem unplaced_close (element : OpenElement) (span : Span) :
    (element.close span).unplaced =
      ⟨(element.unplaced.close span).tag.unplaced, (element.unplaced.close span).content⟩ := by
  have empty : (element.children.map Node.unplaced).isEmpty = element.children.isEmpty := by simp
  simp only [close, Element.unplaced, Content.unplaced_ofNodes, List.map_reverse, Tag.unplaced,
    keptText, unplaced, empty]

variable {first second : OpenElement} (alike : first.Alike second)
include alike

theorem Alike.close (span place : Span) :
    (first.close span).unplaced = (second.close place).unplaced := by
  rw [unplaced_close, unplaced_close, alike.same]
  rfl

theorem Alike.hold {node other : Node} (nodes : node.unplaced = other.unplaced) :
    Alike { first with children := node :: first.children }
      { second with children := other :: second.children } := by
  refine ⟨?_, alike.dense⟩
  have same := alike.same
  simp only [unplaced, OpenElement.mk.injEq, List.map_cons, nodes] at same ⊢
  simp only [same, and_self]

theorem Alike.say (text : Option (List Char)) :
    Alike { first with text } { second with text } := by
  refine ⟨?_, alike.dense⟩
  have same := alike.same
  simp only [unplaced, OpenElement.mk.injEq] at same ⊢
  simp only [same, and_self]

end OpenElement

namespace Reader

/-- Readers that differ in positions and warnings only. -/
structure Alike (first second : Reader) : Prop where
  path : List.Forall₂ OpenElement.Alike first.path second.path
  leading : first.leading.map Comment.unplaced = second.leading.map Comment.unplaced
  trailing : first.trailing.map Comment.unplaced = second.trailing.map Comment.unplaced
  root : first.root.map Element.unplaced = second.root.map Element.unplaced

theorem alike_initial (file : Nat) : (initial file).Alike (initial file) :=
  ⟨.nil, rfl, rfl, rfl⟩

variable {first second : Reader} {ends : List Char} {start stop begins ceases : Nat}

theorem sameOutcome_resolved (scope : Scope) (bound : Option (List Char)) (name : List Char)
    (location place : Span) :
    SameOutcome (· = ·) (resolved name location (scope.resolve bound))
      (resolved name place (scope.resolve bound)) := by
  cases scope.resolve bound with
  | ok uri => exact .ok rfl
  | error missing => exact .error rfl

theorem sameOutcome_entryOf {entry other : WrittenAttribute} (scope : Scope)
    (location place : Span) (lineEnd : IsLineEnd ends) (restyled : entry.Restyled ends other) :
    SameOutcome (· = ·) (entryOf scope location entry) (entryOf scope place other) := by
  have value : normalizeValue other.value = normalizeValue entry.value := by
    rw [restyled.value, normalizeValue_withLineEnds lineEnd restyled.clean]
  unfold entryOf
  rw [restyled.name, value]
  cases expandReferences (normalizeValue entry.value) with
  | error fault => exact .error rfl
  | ok text =>
    simp only [bind, Except.bind, pure, Except.pure]
    cases declaredPrefix? entry.name with
    | some bound => exact .ok rfl
    | none =>
      obtain ⟨bound, localName⟩ := splitName entry.name
      cases bound with
      | none => exact .ok rfl
      | some bound =>
        refine (sameOutcome_resolved scope (some bound) entry.name location place).bind ?_
        rintro uri _ rfl
        exact .ok rfl

theorem sameOutcome_mapM {entries others : List WrittenAttribute} (scope : Scope)
    (location place : Span) (lineEnd : IsLineEnd ends)
    (restyled : List.Forall₂ (WrittenAttribute.Restyled ends) entries others) :
    SameOutcome (· = ·) (entries.mapM (entryOf scope location))
      (others.mapM (entryOf scope place)) := by
  induction restyled with
  | nil => exact .ok rfl
  | cons entry _ ih =>
    rw [List.mapM_cons, List.mapM_cons]
    refine (sameOutcome_entryOf scope location place lineEnd entry).bind ?_
    rintro read _ rfl
    refine ih.bind ?_
    rintro rest _ rfl
    exact .ok rfl

namespace Alike

variable (alike : first.Alike second)
include alike

theorem path_cases : first.path = [] ∧ second.path = [] ∨
    ∃ element outer other others, first.path = element :: outer ∧ second.path = other :: others ∧
      element.Alike other ∧ List.Forall₂ OpenElement.Alike outer others := by
  have path := alike.path
  cases firstPath : first.path with
  | nil =>
    rw [firstPath, List.forall₂_nil_left_iff] at path
    exact .inl ⟨rfl, path⟩
  | cons element outer =>
    rw [firstPath, List.forall₂_cons_left_iff] at path
    obtain ⟨other, others, head, tail, secondPath⟩ := path
    exact .inr ⟨element, outer, other, others, rfl, secondPath, head, tail⟩

theorem scope : first.scope = second.scope := by
  unfold Reader.scope
  obtain ⟨empty, emptyToo⟩ | ⟨element, outer, other, others, held, heldToo, head, -⟩ :=
    alike.path_cases
  · rw [empty, emptyToo]
  · rw [held, heldToo]
    exact (congrArg OpenElement.scope head.same :)

theorem complete : (first.path.isEmpty && first.root.isSome) =
    (second.path.isEmpty && second.root.isSome) := by
  have rooted : first.root.isSome = second.root.isSome := by
    simpa using congrArg Option.isSome alike.root
  obtain ⟨empty, emptyToo⟩ | ⟨element, outer, other, others, held, heldToo, -, -⟩ :=
    alike.path_cases
  · rw [empty, emptyToo, rooted]
  · rw [held, heldToo]
    rfl

theorem attach {node other : Node} (nodes : node.unplaced = other.unplaced) :
    (first.attach node).Alike (second.attach other) := by
  unfold Reader.attach
  obtain ⟨empty, emptyToo⟩ | ⟨element, outer, _, others, held, heldToo, head, tail⟩ :=
    alike.path_cases
  · rw [empty, emptyToo]
    cases node with
    | element inner =>
      cases other with
      | comment _ => cases nodes
      | element innerToo =>
        refine ⟨.nil, alike.leading, alike.trailing, ?_⟩
        simpa [Node.unplaced] using nodes
    | comment entry =>
      cases other with
      | element _ => cases nodes
      | comment entryToo =>
        have entries : entry.unplaced = entryToo.unplaced := by simpa [Node.unplaced] using nodes
        have begun : first.root.isNone = second.root.isNone := by
          simpa using congrArg Option.isNone alike.root
        simp only [begun]
        split
        · exact ⟨.nil, by simp [entries, alike.leading], alike.trailing, alike.root⟩
        · exact ⟨.nil, alike.leading, by simp [entries, alike.trailing], alike.root⟩
  · rw [held, heldToo]
    exact ⟨.cons (head.hold nodes) tail, alike.leading, alike.trailing, alike.root⟩

theorem closeTag (breaks : IsBreak ends) (name : List Char) :
    SameOutcome Alike (first.closeTag name start stop)
      (second.closeTag (withLineEnds ends name) begins ceases) := by
  unfold Reader.closeTag
  obtain ⟨empty, emptyToo⟩ | ⟨element, outer, other, others, held, heldToo, head, tail⟩ :=
    alike.path_cases
  · rw [empty, emptyToo]
    exact .error rfl
  · rw [held, heldToo]
    have written : other.written = element.written := (congrArg OpenElement.written head.same).symm
    have plain : ∀ c ∈ element.written, c ≠ '\n' ∧ c ≠ '\r' := by
      intro c member
      constructor <;>
      · rintro rfl
        exact absurd (head.dense _ member) (by decide)
    simp only [written, eq_comm (a := element.written), withLineEnds_eq_iff breaks plain]
    split
    · have inner : Alike { first with path := outer } { second with path := others } :=
        ⟨tail, alike.leading, alike.trailing, alike.root⟩
      exact .ok (inner.attach (congrArg Node.element (head.close _ _)))
    · exact .error rfl

theorem addText (text : List Char) :
    SameOutcome Alike (first.addText text start stop) (second.addText text begins ceases) := by
  unfold Reader.addText
  obtain ⟨empty, emptyToo⟩ | ⟨element, outer, other, others, held, heldToo, head, tail⟩ :=
    alike.path_cases
  · rw [empty, emptyToo]
    simp only
    split
    · exact .ok alike
    · exact .error rfl
  · rw [held, heldToo]
    have childless : other.children.isEmpty = element.children.isEmpty := by
      have children : element.children.map Node.unplaced = other.children.map Node.unplaced :=
        (congrArg OpenElement.children head.same :)
      simpa using congrArg List.isEmpty children.symm
    have held : other.text = element.text := (congrArg OpenElement.text head.same).symm
    simp only [childless, held]
    split
    · exact .ok ⟨.cons (head.say _) tail, alike.leading, alike.trailing, alike.root⟩
    split
    · exact .ok alike
    · exact .ok ⟨.cons head tail, alike.leading, alike.trailing, alike.root⟩

theorem openTag {content : List Char} (lineEnd : IsLineEnd ends) (clean : '\r' ∉ content)
    (inLine : DeclaresInLine content) :
    SameOutcome OpenElement.Alike (first.openTag content start stop)
      (second.openTag (withLineEnds ends content) begins ceases) := by
  have breaks := lineEnd.isBreak
  obtain ⟨attributes, fault⟩ := restyled_tagAttributes breaks true clean
  unfold Reader.openTag
  simp only [alike.scope, alike.complete, Scope.enter_withLineEnds _ breaks clean inLine,
    tagName_withLineEnds breaks]
  cases second.scope.enter content with
  | error fault => exact .error rfl
  | ok scope =>
  simp only [pure_bind]
  split
  · exact .error rfl
  refine (sameOutcome_resolved scope (splitName (tagName content)).1 (tagName content) _ _).bind ?_
  rintro uri _ rfl
  refine (sameOutcome_mapM scope _ _ lineEnd attributes).bind ?_
  rintro entries _ rfl
  -- what has been read of the attributes is the same, so it remains whether all of them were read
  cases found : (tagAttributes true content).fault with
  | some fault' =>
    rw [found, Option.isSome_some] at fault
    obtain ⟨other, foundToo⟩ := Option.isSome_iff_exists.mp fault
    rw [foundToo]
    exact .error rfl
  | none =>
    rw [found, Option.isSome_none, Option.isSome_eq_false_iff, Option.isNone_iff_eq_none] at fault
    rw [fault]
    exact .ok ⟨rfl, isSpace_tagName content⟩

/-- One token: what it changes does not depend on its line ends. -/
theorem step {lexeme other : Lexeme} (lineEnd : IsLineEnd ends)
    (restyled : Token.Restyled ends lexeme.token other.token)
    (inLine : ∀ content ∈ lexeme.token.tagContent?, DeclaresInLine content) :
    SameOutcome Alike (first.step lexeme) (second.step other) := by
  obtain ⟨token, start, stop⟩ := lexeme
  obtain ⟨tokenToo, begins, ceases⟩ := other
  cases restyled with
  | @text raw clean =>
    simp only [Reader.step, normalizeLineEnds_restyled lineEnd clean]
    cases expandReferences (normalizeLineEnds raw) with
    | ok text => exact alike.addText text
    | error fault => exact .error rfl
  | opening clean =>
    refine (alike.openTag lineEnd clean (inLine _ rfl)).bind ?_
    intro element other elements
    exact .ok ⟨.cons elements alike.path, alike.leading, alike.trailing, alike.root⟩
  | selfClosing clean =>
    refine (alike.openTag lineEnd clean (inLine _ rfl)).bind ?_
    intro element other elements
    exact .ok (alike.attach (congrArg Node.element (elements.close _ _)))
  | closing _ => exact alike.closeTag lineEnd.isBreak _
  | cdata clean =>
    simp only [Reader.step, normalizeLineEnds_restyled lineEnd clean]
    exact alike.addText _
  | comment clean =>
    simp only [Reader.step, normalizeLineEnds_restyled lineEnd clean]
    exact .ok (alike.attach rfl)
  | other => exact .ok alike

/-- Errors come at the same token, and what has been read before them is the same. -/
theorem run {lexemes others : List Lexeme} (lineEnd : IsLineEnd ends)
    (restyled : List.Forall₂ (fun lexeme other => Token.Restyled ends lexeme.token other.token)
      lexemes others)
    (inLine : ∀ lexeme ∈ lexemes, ∀ content ∈ lexeme.token.tagContent?, DeclaresInLine content) :
    (first.run lexemes).1.Alike (second.run others).1 ∧
      (first.run lexemes).2.map Error.kind = (second.run others).2.map Error.kind := by
  induction restyled generalizing first second with
  | nil => exact ⟨alike, rfl⟩
  | @cons lexeme other _ _ token _ ih =>
    have outcome := alike.step lineEnd token (inLine _ List.mem_cons_self)
    unfold Reader.run
    generalize first.step lexeme = after, second.step other = afterToo at outcome ⊢
    cases outcome with
    | ok goesOn => exact ih goesOn fun later member => inLine later (List.mem_cons_of_mem _ member)
    | error kind => exact ⟨alike, congrArg some kind⟩

theorem document : SameOutcome (fun whole other => whole.same other = true) first.document
    second.document := by
  have root := alike.root
  unfold Reader.document
  obtain ⟨empty, emptyToo⟩ | ⟨element, outer, _, others, held, heldToo, -, -⟩ :=
    alike.path_cases
  · rw [empty, emptyToo]
    cases firstRoot : first.root with
    | none =>
      rw [firstRoot, Option.map_none, eq_comm, Option.map_eq_none_iff] at root
      rw [root]
      exact .error rfl
    | some whole =>
      rw [firstRoot, Option.map_some, eq_comm, Option.map_eq_some_iff] at root
      obtain ⟨other, secondRoot, same⟩ := root
      rw [secondRoot]
      have bare : whole.bare = other.bare := by
        rw [← Element.bare_unplaced, ← same, Element.bare_unplaced]
      refine .ok (Document.same_iff.mpr ?_)
      simp only [Document.bare, List.map_reverse, alike.leading, alike.trailing, bare]
  · rw [held, heldToo]
    exact .error rfl

end Alike
end Reader

theorem withoutMark_withLineEnds {ends : List Char} (breaks : IsBreak ends) (text : List Char) :
    withoutMark (withLineEnds ends text) = withLineEnds ends (withoutMark text) := by
  by_cases marked : ['\ufeff'] <+: text
  · obtain ⟨rest, rfl⟩ := marked
    rw [List.singleton_append, withLineEnds_cons (by decide)]
    rfl
  · have unmarked {whole : List Char} (apart : ¬ ['\ufeff'] <+: whole) :
        whole.head? ≠ some '\ufeff' := by
      intro begins
      obtain ⟨rest, rfl⟩ := List.head?_eq_some_iff.mp begins
      exact apart ⟨rest, rfl⟩
    have apart : ¬ ['\ufeff'] <+: withLineEnds ends text := by
      rwa [prefix_withLineEnds_iff breaks (by simp)]
    rw [withoutMark_eq_self (unmarked marked), withoutMark_eq_self (unmarked apart)]

theorem withoutMark_suffix (text : List Char) : withoutMark text <:+ text := by
  unfold withoutMark
  split
  · exact List.suffix_cons _ _
  · exact List.suffix_rfl

/-- Reading does not depend on the line ends of a text without carriage returns, as long as they are
not in a namespace declaration: the same document is read, or reading fails with the same kind of
error. -/
theorem sameOutcome_parse {ends : List Char} {text : String} (file : Nat) (lineEnd : IsLineEnd ends)
    (clean : '\r' ∉ text.toList) (inLine : TextDeclaresInLine text) :
    SameOutcome (fun document other => document.same other = true) (parse file text)
      (parse file (String.ofList (withLineEnds ends text.toList))) := by
  have breaks := lineEnd.isBreak
  have cleanRest : '\r' ∉ withoutMark text.toList := fun member =>
    clean ((withoutMark_suffix text.toList).subset member)
  obtain ⟨tokens, fault⟩ := restyled_ofText breaks cleanRest
  have declared : ∀ lexeme ∈ (Lexemes.ofText (withoutMark text.toList)).lexemes,
      ∀ content ∈ lexeme.token.tagContent?, DeclaresInLine content := fun lexeme member content held =>
    inLine content (List.mem_filterMap.mpr ⟨lexeme, member, held⟩)
  obtain ⟨alike, kinds⟩ := (Reader.alike_initial file).run lineEnd tokens declared
  unfold parse read
  rw [String.toList_ofList, withoutMark_withLineEnds breaks]
  generalize Lexemes.ofText (withoutMark text.toList) = lexemes,
    Lexemes.ofText (withLineEnds ends (withoutMark text.toList)) = lexemesToo
    at alike kinds fault ⊢
  obtain ⟨lexemes, found⟩ := lexemes
  obtain ⟨lexemesToo, foundToo⟩ := lexemesToo
  simp only at alike kinds fault ⊢
  generalize (Reader.initial file).run lexemes = after,
    (Reader.initial file).run lexemesToo = afterToo at alike kinds ⊢
  obtain ⟨after, error⟩ := after
  obtain ⟨afterToo, errorToo⟩ := afterToo
  cases error with
  | some error =>
    obtain ⟨other, rfl, kind⟩ := Option.map_eq_some_iff.mp kinds.symm
    exact .error kind.symm
  | none =>
    obtain rfl := Option.map_eq_none_iff.mp kinds.symm
    cases found with
    | some found =>
      obtain ⟨other, rfl, -⟩ := Option.map_eq_some_iff.mp fault
      exact .error rfl
    | none =>
      obtain rfl := Option.map_eq_none_iff.mp fault
      exact alike.document

theorem sameOutcome_parse_everywhere :
    (parse 0 "<?x\n?><a\nb='1\n2'><!--\n--><![CDATA[\n]]></a\n>\n").isOk = true ∧
      SameOutcome (fun document other => document.same other = true)
        (parse 0 "<?x\n?><a\nb='1\n2'><!--\n--><![CDATA[\n]]></a\n>\n")
        (parse 0 "<?x\r\n?><a\r\nb='1\r\n2'><!--\r\n--><![CDATA[\r\n]]></a\r\n>\r\n") := by
  have restyled : String.ofList (withLineEnds ['\r', '\n']
      "<?x\n?><a\nb='1\n2'><!--\n--><![CDATA[\n]]></a\n>\n".toList) =
      "<?x\r\n?><a\r\nb='1\r\n2'><!--\r\n--><![CDATA[\r\n]]></a\r\n>\r\n" := by
    decide
  refine ⟨by rfl, restyled ▸ sameOutcome_parse 0 .both ?_ ?_⟩
  · decide
  · decide

end KeyholeMarkup.Xml

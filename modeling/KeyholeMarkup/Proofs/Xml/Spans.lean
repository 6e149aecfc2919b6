import KeyholeMarkup.Proofs.Xml.Spelling
import KeyholeMarkup.Proofs.Xml.Tree
import KeyholeMarkup.Proofs.Xml.WellNamed

/-! Positions of the nodes of a document. What stands in the text at the position of a node is the node
as it is written, and the positions are nested as the nodes are. -/
namespace KeyholeMarkup.Xml
open KeyholeMarkup.Source KeyholeMarkup.Text

def Node.span? : Node → Option Span
  | .comment entry => entry.span
  | .element child => child.tag.span

def Node.children : Node → List Node
  | .comment _ => []
  | .element child => child.content.nodes

/-- A comment is written in the text between two offsets. -/
def Comment.WrittenAt (entry : Comment) (text : List Char) (start stop : Nat) : Prop :=
  ∃ raw, Covers text start stop ("<!--".toList ++ raw ++ "-->".toList) ∧
    LineEndsNormalized raw entry.text.toList

/-- An element is written between two offsets, from its name up to a closing angle bracket. -/
def Tag.WrittenAt (tag : Tag) (text : List Char) (start stop : Nat) : Prop :=
  ∃ inner, Covers text start stop ('<' :: tag.writtenName.toList ++ inner ++ ['>'])

def Node.WrittenAt : Node → List Char → Nat → Nat → Prop
  | .comment entry => entry.WrittenAt
  | .element child => child.tag.WrittenAt

/-- A content that is written between two offsets: its nodes one behind the other, what an element
holds behind the beginning and before the end of the element. -/
inductive Content.Placed (file : Nat) (text : List Char) : Nat → Nat → Content → Prop
  | empty {lower upper} : lower ≤ upper → Placed file text lower upper .empty
  | comment {lower upper start stop entry rest} : lower ≤ start →
    entry.span = some ⟨file, start, stop⟩ → entry.WrittenAt text start stop →
    Placed file text stop upper rest → Placed file text lower upper (.comment entry rest)
  | element {lower upper start first last stop tag inner rest} : lower ≤ start → start < first →
    last < stop → tag.span = some ⟨file, start, stop⟩ → tag.WrittenAt text start stop →
    Placed file text first last inner → Placed file text stop upper rest →
    Placed file text lower upper (.element tag inner rest)

def Node.Placed (file : Nat) (text : List Char) (lower upper : Nat) (node : Node) : Prop :=
  (Content.cons node .empty).Placed file text lower upper

section
variable {file : Nat} {text : List Char} {lower middle upper start stop : Nat} {content : Content}

theorem Comment.WrittenAt.room {entry : Comment} (written : entry.WrittenAt text start stop) :
    start + 1 < stop := by
  obtain ⟨raw, covers, -⟩ := written
  have room := covers.length_le
  simp at room
  omega

theorem Content.Placed.le (placed : content.Placed file text lower upper) : lower ≤ upper := by
  induction placed with
  | empty le => exact le
  | comment behind _ written _ ih =>
    have room := written.room
    omega
  | element behind opened closed _ _ _ _ ihInner ihRest => omega

theorem Content.Placed.append {other : Content} (placed : content.Placed file text lower middle)
    (after : other.Placed file text middle upper) :
    (content.append other).Placed file text lower upper := by
  induction placed with
  | empty le =>
    cases after with
    | empty further => exact .empty (Nat.le_trans le further)
    | comment behind span written rest => exact .comment (Nat.le_trans le behind) span written rest
    | element behind opened closed span written inner rest =>
      exact .element (Nat.le_trans le behind) opened closed span written inner rest
  | comment behind span written _ ih => exact .comment behind span written (ih after)
  | element behind opened closed span written inner _ _ ih =>
    exact .element behind opened closed span written inner (ih after)

theorem Content.Placed.mono (placed : content.Placed file text lower middle)
    (further : middle ≤ upper) : content.Placed file text lower upper := by
  have whole := placed.append (.empty further)
  rw [← ofNodes_nodes (content.append .empty), nodes_append, nodes, List.append_nil,
    ofNodes_nodes] at whole
  exact whole

/-- A node comes behind what has been written. -/
theorem Content.Placed.add {nodes : List Node} {node : Node}
    (placed : (ofNodes nodes).Placed file text lower middle)
    (next : node.Placed file text middle upper) :
    (ofNodes (nodes ++ [node])).Placed file text lower upper := by
  rw [ofNodes_append]
  exact placed.append next

end

/-- A tag is read under its name as it is written. -/
theorem Tag.OpenedBy.writtenName {scope : Scope} {content : List Char} {tag : Tag}
    (opened : tag.OpenedBy scope content) : tag.writtenName.toList = tagName content := by
  have whole := eq_of_splitName (tagName content)
  have named := opened.name
  unfold Tag.writtenName
  rw [opened.nsPrefix]
  unfold Scope.elementName? at named
  cases split : splitName (tagName content) with
  | mk bound localName =>
  rw [split] at whole named
  simp only [Option.map_eq_some_iff] at named
  obtain ⟨uri, -, name⟩ := named
  rw [whole, ← name]
  cases bound with
  | none => simp [qualified, Name.within]
  | some bound => simp [qualified, Name.within, Naming.written]

@[simp] theorem OpenElement.writtenName_close (element : OpenElement) (span : Span) :
    (element.close span).tag.writtenName = element.tag.writtenName := rfl

theorem Token.Spelled.exists_closing {name piece : List Char}
    (spelled : Spelled (.closing name) piece) :
    ∃ content, piece = '<' :: '/' :: content ++ ['>'] := by
  cases spelled with
  | closing content => exact ⟨content, rfl⟩

namespace Reader

/-- The nodes that are complete outside of the open elements. -/
def outermost (reader : Reader) : List Node :=
  reader.leading.reverse.map .comment ++ reader.root.toList.map .element ++
    reader.trailing.reverse.map .comment

/-- Open elements, innermost first, as far as they have been read. Each begins with a start tag, behind
what the one around it holds. -/
inductive PathPlaced (file : Nat) (text : List Char) (outermost : List Node) :
    List OpenElement → Nat → Prop
  | nil {reached} : (Content.ofNodes outermost).Placed file text 0 reached →
    PathPlaced file text outermost [] reached
  | cons {element outer within reached} : PathPlaced file text outermost outer element.start →
    (∃ behind, Covers text element.start within
      ('<' :: element.tag.writtenName.toList ++ behind)) →
    (Content.ofNodes element.children.reverse).Placed file text within reached →
    PathPlaced file text outermost (element :: outer) reached

/-- What has been read up to a place is written before it. -/
def Placed (reader : Reader) (text : List Char) (reached : Nat) : Prop :=
  PathPlaced reader.file text reader.outermost reader.path reached

variable {reader after : Reader} {file reached further : Nat} {text : List Char}

theorem PathPlaced.mono {outermost : List Node} {path : List OpenElement}
    (placed : PathPlaced file text outermost path reached) (more : reached ≤ further) :
    PathPlaced file text outermost path further := by
  cases placed with
  | nil nodes => exact .nil (nodes.mono more)
  | cons outer opened children => exact .cons outer opened (children.mono more)

/-- A node that is attached comes behind everything that is complete. -/
theorem Placed.attach {node : Node} (placed : reader.Placed text reached) (staged : reader.Staged)
    (attachable : reader.Attachable node) (next : node.Placed reader.file text reached further) :
    (reader.attach node).Placed text further := by
  obtain ⟨file, path, leading, trailing, root, warnings⟩ := reader
  unfold Placed at placed ⊢
  cases path with
  | cons parent outer =>
    cases placed with
    | cons around opened children =>
      refine PathPlaced.cons around opened ?_
      rw [List.reverse_cons]
      exact children.add next
  | nil =>
    cases placed with
    | nil nodes =>
      have added := nodes.add next
      cases node with
      | element child =>
        have absent : root = none := attachable rfl
        have nothing : trailing = [] := staged.trailing absent
        subst absent nothing
        apply PathPlaced.nil
        simpa [Reader.attach, outermost] using added
      | comment entry =>
        cases root with
        | none =>
          have nothing : trailing = [] := staged.trailing rfl
          subst nothing
          apply PathPlaced.nil
          simpa [Reader.attach, outermost] using added
        | some closed =>
          apply PathPlaced.nil
          simpa [Reader.attach, outermost] using added

theorem span_eq (reader : Reader) {start stop : Nat} (ordered : start ≤ stop) :
    reader.span start stop = ⟨reader.file, start, stop⟩ := by
  rw [span, Span.between, Nat.max_eq_left ordered]

theorem Retold.placed (retold : Retold reader after) (placed : reader.Placed text reached) :
    after.Placed text reached := by
  unfold Placed outermost at placed ⊢
  rw [retold.file, retold.leading, retold.root, retold.trailing]
  rcases retold.path with same | ⟨element, outer, characters, inside, same⟩
  · rw [same]
    exact placed
  · rw [inside] at placed
    rw [same]
    cases placed with
    | cons around opened children => exact .cons around opened children

/-- A tag begins with the name of its element. -/
theorem Opened.covers {content ending : List Char} {start stop : Nat} {element : OpenElement}
    (opened : reader.Opened content start element)
    (covers : Covers text start stop ('<' :: content ++ ending)) :
    ∃ behind, Covers text element.start stop ('<' :: element.tag.writtenName.toList ++ behind) ∧
      behind = content.dropWhile (!isSpace ·) ++ ending := by
  refine ⟨_, ?_, rfl⟩
  rw [opened.start, opened.openedBy.writtenName, tagName, ← List.append_assoc, List.cons_append,
    List.takeWhile_append_dropWhile]
  exact covers

/-- An element that is closed stands between its tags. -/
theorem PathPlaced.close {outermost : List Node} {element : OpenElement} {outer : List OpenElement}
    {start stop : Nat} {content : List Char}
    (placed : PathPlaced file text outermost (element :: outer) reached) (behind : reached ≤ start)
    (covers : Covers text start stop ('<' :: '/' :: content ++ ['>'])) :
    PathPlaced file text outermost outer element.start ∧
      Node.Placed file text element.start stop
        (.element (element.close ⟨file, element.start, stop⟩)) := by
  cases placed with
  | cons around opened children =>
    obtain ⟨rest, opened⟩ := opened
    have begun := opened.length_le
    have ended := covers.length_le
    simp only [List.length_append, List.length_cons] at begun ended
    have inside := Nat.le_trans children.le behind
    obtain ⟨inner, whole⟩ := opened.join covers inside
    have written : (element.close ⟨file, element.start, stop⟩).tag.WrittenAt text element.start
        stop := by
      refine ⟨rest ++ inner ++ '<' :: '/' :: content, ?_⟩
      simpa using whole
    refine ⟨around, ?_⟩
    exact .element (Nat.le_refl _) (by omega) (by omega) rfl written children
      (.empty (Nat.le_refl _))

/-- An element without an end tag stands where its tag does. -/
theorem Opened.placed {content : List Char} {start stop : Nat} {element : OpenElement}
    (opened : reader.Opened content start element)
    (covers : Covers text start stop ('<' :: content ++ ['/', '>'])) :
    Node.Placed file text start stop (.element (element.close ⟨file, start, stop⟩)) := by
  obtain ⟨behind, whole, rest⟩ := opened.covers covers
  have room := covers.length_le
  simp only [List.length_append, List.length_cons, List.length_nil] at room
  have written : (element.close ⟨file, start, stop⟩).tag.WrittenAt text start stop := by
    refine ⟨content.dropWhile (!isSpace ·) ++ ['/'], ?_⟩
    rw [rest, opened.start] at whole
    simpa using whole
  have childless : (Content.ofNodes element.children.reverse).Placed file text (start + 1)
      (start + 1) := by
    rw [opened.children]
    exact .empty (Nat.le_refl _)
  exact .element (Nat.le_refl _) (Nat.lt_succ_self _) (by omega) rfl written childless
    (.empty (Nat.le_refl _))

/-- A step adds what its token writes. -/
theorem Stepped.placed {lexeme : Lexeme} (stepped : reader.Stepped lexeme after)
    (staged : reader.Staged) (stands : lexeme.StandsIn text) (extent : lexeme.start < lexeme.stop)
    (placed : reader.Placed text reached) (behind : reached ≤ lexeme.start) :
    after.Placed text lexeme.stop := by
  obtain ⟨piece, spelled, covers⟩ := stands
  have before : reader.Placed text lexeme.start := PathPlaced.mono placed behind
  have further := Nat.le_of_lt extent
  cases stepped with
  | @opening content start stop element opened =>
    cases spelled
    obtain ⟨rest, begins, -⟩ := opened.covers covers
    have childless : (Content.ofNodes element.children.reverse).Placed reader.file text stop
        stop := by
      rw [opened.children]
      exact .empty (Nat.le_refl _)
    exact .cons (opened.start ▸ before) ⟨rest, begins⟩ childless
  | @selfClosing content start stop element opened =>
    cases spelled
    apply before.attach staged
    · exact opened.single
    · rw [span_eq reader further]
      exact opened.placed covers
  | @closing start stop element outer inside =>
    obtain ⟨content, rfl⟩ := spelled.exists_closing
    unfold Placed at placed
    rw [inside] at placed
    obtain ⟨around, complete⟩ := placed.close behind covers
    have absent := staged.root_eq_none inside
    have around : Placed { reader with path := outer } text element.start := around
    apply around.attach (staged.tail inside)
    · exact fun _ => absent
    · rw [span_eq reader complete.le]
      exact complete
  | @comment raw start stop =>
    cases spelled
    apply before.attach staged
    · exact trivial
    · rw [span_eq reader further]
      exact .comment (Nat.le_refl _) rfl ⟨raw, covers, lineEndsNormalized_ofList raw⟩
        (.empty (Nat.le_refl _))
  | characters _ told => exact told.retold.placed (PathPlaced.mono before further)
  | other => exact PathPlaced.mono before further

theorem Steps.placed {lexemes : List Lexeme} (steps : Steps reader lexemes after)
    (ordered : lexemes.Pairwise fun earlier later => earlier.stop ≤ later.start)
    (extent : ∀ lexeme ∈ lexemes, lexeme.start < lexeme.stop)
    (stands : ∀ lexeme ∈ lexemes, lexeme.StandsIn text) (placed : reader.Placed text reached)
    (behind : ∀ lexeme ∈ lexemes, reached ≤ lexeme.start) (inside : reached ≤ byteLength text) :
    after.Placed text (byteLength text) := by
  induction steps generalizing reached with
  | nil => exact PathPlaced.mono placed inside
  | @cons _ _ _ lexeme _ staged stepped _ ih =>
    obtain ⟨next, later⟩ := List.pairwise_cons.mp ordered
    obtain ⟨here, standsLater⟩ := List.forall_mem_cons.mp stands
    obtain ⟨own, extentLater⟩ := List.forall_mem_cons.mp extent
    have first := stepped.placed staged here own placed (behind lexeme List.mem_cons_self)
    obtain ⟨_, _, covers⟩ := here
    exact ih later extentLater standsLater first next covers.stop_le

theorem placed_initial (file : Nat) (text : List Char) : (initial file).Placed text 0 :=
  .nil (.empty (Nat.le_refl 0))

end Reader

/-- A document stands in the text that it has been read from. -/
theorem placed_of_parse {file : Nat} {text : String} {document : Document}
    (parsed : parse file text = .ok document) :
    document.content.Placed file (withoutMark text.toList) 0
      (byteLength (withoutMark text.toList)) := by
  obtain ⟨after, steps, ended, -⟩ := Reader.steps_of_read parsed
  have placed := steps.placed (Lexemes.pairwise_ofText _) (Lexemes.start_lt_stop_ofText _)
    (Lexemes.standsIn_ofText _) (Reader.placed_initial file _) (by simp) (Nat.zero_le _)
  obtain ⟨outside, leading, root, trailing⟩ := Reader.held_of_document ended
  unfold Reader.Placed at placed
  rw [outside] at placed
  cases placed with
  | nil nodes =>
    have whole : after.outermost = document.leading.map .comment ++
        .element document.root :: document.trailing.map .comment := by
      simp [Reader.outermost, leading, root, trailing]
    rw [whole, steps.file] at nodes
    exact nodes

/-- Every node of a content stands where its position says, and what it holds stands within. -/
theorem Content.Placed.of_mem {file lower upper : Nat} {text : List Char} {content : Content}
    (placed : content.Placed file text lower upper) : ∀ node ∈ content.allNodes,
      ∃ start stop, node.span? = some ⟨file, start, stop⟩ ∧ start < stop ∧ stop ≤ upper ∧
        node.WrittenAt text start stop ∧ ∃ first last, start < first ∧ last < stop ∧
          (ofNodes node.children).Placed file text first last := by
  induction placed with
  | empty _ => simp [allNodes]
  | @comment lower upper start stop entry rest behind span written others ih =>
    apply List.forall_mem_cons.mpr ⟨?_, ih⟩
    have room := written.room
    exact ⟨start, stop, span, by omega, others.le, written, start + 1, start + 1, by omega, room,
      .empty (Nat.le_refl _)⟩
  | @element lower upper start first last stop tag inner rest behind opened closed span written
      within others ihInner ihRest =>
    have inside := within.le
    have before := others.le
    have own : (ofNodes (Node.element ⟨tag, inner⟩).children).Placed file text first last := by
      rw [Node.children, ofNodes_nodes]
      exact within
    rw [allNodes, List.cons_append]
    apply List.forall_mem_cons.mpr ⟨?_, List.forall_mem_append.mpr ⟨?_, ihRest⟩⟩
    · exact ⟨start, stop, span, by omega, before, written, first, last, opened, closed, own⟩
    · intro node member
      obtain ⟨start', stop', span', extent, reach, known⟩ := ihInner node member
      exact ⟨start', stop', span', extent, by omega, known⟩

/-- Nodes that stand one behind the other, in this order. -/
def Node.Before (first second : Node) : Prop :=
  ∃ earlier later, first.span? = some earlier ∧ second.span? = some later ∧
    earlier.stop ≤ later.start

/-- A node that begins behind the beginning of another one and ends before its end. -/
def Node.Inside (inner outer : Node) : Prop :=
  ∃ within around, inner.span? = some within ∧ outer.span? = some around ∧
    around.start < within.start ∧ within.stop < around.stop

/-- Nodes between two offsets, one behind the other. -/
structure Node.InOrder (file lower upper : Nat) (nodes : List Node) : Prop where
  between : ∀ node ∈ nodes, ∃ start stop, node.span? = some ⟨file, start, stop⟩ ∧
    lower ≤ start ∧ stop ≤ upper
  ordered : nodes.Pairwise Node.Before

theorem Node.InOrder.cons {file lower upper start stop : Nat} {node : Node} {nodes : List Node}
    (span : node.span? = some ⟨file, start, stop⟩) (behind : lower ≤ start) (extent : start ≤ stop)
    (reach : stop ≤ upper) (others : InOrder file stop upper nodes) :
    InOrder file lower upper (node :: nodes) := by
  refine ⟨List.forall_mem_cons.mpr ⟨⟨start, stop, span, behind, reach⟩, ?_⟩,
    List.pairwise_cons.mpr ⟨?_, others.ordered⟩⟩
  · intro other member
    obtain ⟨start', stop', span', after, reach'⟩ := others.between other member
    exact ⟨start', stop', span', by omega, reach'⟩
  · intro other member
    obtain ⟨start', stop', span', after, -⟩ := others.between other member
    exact ⟨_, _, span, span', after⟩

/-- What a content holds stands between its bounds and in order. -/
theorem Content.Placed.inOrder {file lower upper : Nat} {text : List Char} {content : Content}
    (placed : content.Placed file text lower upper) :
    Node.InOrder file lower upper content.nodes := by
  induction placed with
  | empty _ => exact ⟨by simp [Content.nodes], .nil⟩
  | comment behind span written others ih =>
    have room := written.room
    exact ih.cons span behind (by omega) others.le
  | element behind opened closed span written within others _ ih =>
    have inside := within.le
    exact ih.cons span behind (by omega) others.le

/-- The positions of a document in a file of some length are nested as its nodes are: what an element
holds lies strictly inside it, and nodes beside one another follow each other. -/
structure Document.SpansNest (document : Document) (file length : Nat) : Prop where
  extent : ∀ node ∈ document.allNodes, ∃ start stop, node.span? = some ⟨file, start, stop⟩ ∧
    start < stop ∧ stop ≤ length
  inside : ∀ node ∈ document.allNodes, ∀ child ∈ node.children, child.Inside node
  siblings : ∀ node ∈ document.allNodes, node.children.Pairwise Node.Before
  outermost : document.content.nodes.Pairwise Node.Before

/-- The bytes of the byte order mark at the start of a text, which positions do not count. -/
def markLength (text : List Char) : Nat := if text.head? = some '\ufeff' then 3 else 0

theorem exists_mark (text : List Char) :
    ∃ mark, text = mark ++ withoutMark text ∧ byteLength mark = markLength text := by
  by_cases marked : text.head? = some '\ufeff'
  · obtain ⟨rest, rfl⟩ := List.head?_eq_some_iff.mp marked
    exact ⟨['\ufeff'], rfl, rfl⟩
  · refine ⟨[], by rw [withoutMark_eq_self marked, List.nil_append], ?_⟩
    rw [markLength, if_neg marked]
    rfl

theorem Node.WrittenAt.behindMark {node : Node} {text : List Char} {start stop : Nat}
    (written : node.WrittenAt (withoutMark text) start stop) :
    node.WrittenAt text (markLength text + start) (markLength text + stop) := by
  obtain ⟨mark, whole, length⟩ := exists_mark text
  rw [← length]
  cases node with
  | comment entry =>
    obtain ⟨raw, covers, normalized⟩ := written
    exact ⟨raw, whole ▸ covers.behind mark, normalized⟩
  | element child =>
    obtain ⟨inner, covers⟩ := written
    exact ⟨inner, whole ▸ covers.behind mark⟩

section
variable {file : Nat} {text : String} {document : Document}

/-- At the position of each node the text holds the node as it is written: of an element the name
behind an angle bracket, up to a closing one, of a comment all of it. Positions are counted from
behind a byte order mark. -/
theorem writtenAt_of_parse (parsed : parse file text = .ok document) :
    ∀ node ∈ document.allNodes, ∃ start stop, node.span? = some ⟨file, start, stop⟩ ∧
      node.WrittenAt text.toList (markLength text.toList + start)
        (markLength text.toList + stop) := by
  intro node member
  obtain ⟨start, stop, span, -, -, written, -⟩ := (placed_of_parse parsed).of_mem node member
  exact ⟨start, stop, span, written.behindMark⟩

set_option maxRecDepth 4000 in
/-- Behind a byte order mark, positions are three bytes short. -/
theorem writtenAt_of_parse_marked :
    ∃ document, parse 0 "\ufeff<!--é\r\n--><k:a xmlns:k='u' b='>'>é<c/><!--x--></k:a >" =
        .ok document ∧ document.root.tag.span = some ⟨0, 11, 55⟩ ∧
      ∀ node ∈ document.allNodes, ∃ start stop, node.span? = some ⟨0, start, stop⟩ ∧
        node.WrittenAt "\ufeff<!--é\r\n--><k:a xmlns:k='u' b='>'>é<c/><!--x--></k:a >".toList
          (3 + start) (3 + stop) := by
  have parsed : parse 0 "\ufeff<!--é\r\n--><k:a xmlns:k='u' b='>'>é<c/><!--x--></k:a >" =
      .ok ⟨[⟨"é\n", some ⟨0, 0, 11⟩⟩],
        ⟨⟨⟨some "u", "a"⟩, some "k", [⟨some "k", "u"⟩], [⟨⟨none, "b"⟩, none, ">"⟩], some "é",
          some ⟨0, 11, 55⟩⟩,
          .element ⟨⟨none, "c"⟩, none, [], [], none, some ⟨0, 36, 40⟩⟩ .empty
            (.comment ⟨"x", some ⟨0, 40, 48⟩⟩ .empty)⟩, []⟩ := by
    rfl
  exact ⟨_, parsed, rfl, writtenAt_of_parse parsed⟩

/-- The positions of a document that has been read are nested as its nodes are. -/
theorem spansNest_of_parse (parsed : parse file text = .ok document) :
    document.SpansNest file (byteLength text.toList) := by
  have placed := placed_of_parse parsed
  obtain ⟨mark, whole, -⟩ := exists_mark text.toList
  have shorter : byteLength (withoutMark text.toList) ≤ byteLength text.toList := by
    conv => rhs; rw [whole, byteLength_append]
    exact Nat.le_add_left _ _
  refine ⟨?_, ?_, ?_, placed.inOrder.ordered⟩
  · intro node member
    obtain ⟨start, stop, span, extent, reach, -⟩ := placed.of_mem node member
    exact ⟨start, stop, span, extent, Nat.le_trans reach shorter⟩
  · intro node member child held
    obtain ⟨start, stop, span, -, -, -, first, last, opened, closed, inner⟩ :=
      placed.of_mem node member
    rw [← Content.nodes_ofNodes node.children] at held
    obtain ⟨start', stop', span', after, reach⟩ := inner.inOrder.between child held
    exact ⟨_, _, span', span, Nat.lt_of_lt_of_le opened after, Nat.lt_of_le_of_lt reach closed⟩
  · intro node member
    obtain ⟨start, stop, span, -, -, -, first, last, opened, closed, inner⟩ :=
      placed.of_mem node member
    rw [← Content.nodes_ofNodes node.children]
    exact inner.inOrder.ordered

end

theorem spansNest_of_parse_nested :
    ∃ document, parse 1 "<!--é--><a ><b>x<c/><!--y--></b\n><d/></a><!--z-->" = .ok document ∧
      document.SpansNest 1 50 := by
  have parsed : parse 1 "<!--é--><a ><b>x<c/><!--y--></b\n><d/></a><!--z-->" =
      .ok ⟨[⟨"é", some ⟨1, 0, 9⟩⟩],
        ⟨⟨⟨none, "a"⟩, none, [], [], none, some ⟨1, 9, 42⟩⟩,
          .element ⟨⟨none, "b"⟩, none, [], [], some "x", some ⟨1, 13, 34⟩⟩
            (.element ⟨⟨none, "c"⟩, none, [], [], none, some ⟨1, 17, 21⟩⟩ .empty
              (.comment ⟨"y", some ⟨1, 21, 29⟩⟩ .empty))
            (.element ⟨⟨none, "d"⟩, none, [], [], none, some ⟨1, 34, 38⟩⟩ .empty .empty)⟩,
        [⟨"z", some ⟨1, 42, 50⟩⟩]⟩ := by
    rfl
  exact ⟨_, parsed, spansNest_of_parse parsed⟩

end KeyholeMarkup.Xml

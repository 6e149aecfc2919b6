import KeyholeMarkup.Proofs.Script.Layout
import KeyholeMarkup.Proofs.Script.Steps

/-! Scripts read back. The reader finds in a script what the script keeps of its document: the
calls by induction on the tree, then the statements after the root. -/
namespace KeyholeMarkup.Script
open KeyholeMarkup.Text KeyholeMarkup.Xml

namespace Reading

/-- Reads on behind an opening. Behind an argument a comma or the end of the call follows. -/
def behind (builders : Builders) (argument : Bool) (calls : List Call) (call : Call)
    (text : List Char) : Option (Element × List Char) :=
  if argument then proceed builders calls call text else arguments builders calls call text

/-- A call of an element as it is before its content: with the tag and the text that is kept. -/
def openCall (builders : Builders) (tag : Tag) : Call where
  uri := builders.uriFor tag.name
  tag := some tag.name.localName.toList
  text := some (keptText (tag.text.getD "").toList) |>.filter (· ≠ [])
  children := []
  attributes := []

section Behind
variable (builders : Builders) (argument : Bool) (calls : List Call) (call : Call)

theorem behind_close (rest : List Char) :
    behind builders argument calls call (')' :: rest) = leave builders calls call rest := by
  unfold behind
  split
  · exact proceed_close builders calls call rest
  · exact arguments_close builders calls call rest

theorem behind_commaIf (rest : List Char) :
    behind builders argument calls call (commaIf argument ++ rest) =
      arguments builders calls call rest := by
  cases argument with
  | false => rfl
  | true => exact proceed_comma builders calls call rest

end Behind

theorem arguments_slot (builders : Builders) (calls : List Call) (uri : String)
    (tag text : List Char) {indent : List Char} (blank : allBlank indent) {rest : List Char}
    (last : (Slot.ofText text indent).filled → startsString (trimLeft rest) = false) :
    arguments builders calls ⟨uri, some tag, none, [], []⟩ ((Slot.ofText text indent).code ++ rest) =
      behind builders (Slot.ofText text indent).filled calls
        ⟨uri, some tag, some (keptText text) |>.filter (· ≠ []), [], []⟩ rest := by
  unfold behind
  rcases Slot.holds_or_blank text blank with holds | empty
  · obtain ⟨gap, spaces, read⟩ := holds.read rest (last holds.filled)
    rw [arguments_strings calls _ (holds.starts rest) read, if_pos holds.filled]
    have kept : (some (keptText text)).filter (· ≠ []) = some (keptText text) := by
      simp [holds.ne_nil]
    rw [kept]
    exact proceed_blank builders calls _ spaces rest
  · rw [arguments_blank builders calls _ empty.blank, empty.unfilled, empty.eq_nil]
    rfl

theorem arguments_literalTag (builders : Builders) (calls : List Call) (uri : String)
    (tag text : List Char) {indent : List Char} (blank : allBlank indent) {rest comma : List Char}
    (last : startsString (trimLeft rest) = false)
    (separated : if (Slot.ofText text indent).filled then comma = [','] ∨ comma = [',', ' ']
      else comma = []) :
    arguments builders calls ⟨uri, none, none, [], []⟩
        (literal tag ++ (comma ++ ((Slot.ofText text indent).code ++ rest))) =
      proceed builders calls ⟨uri, some tag, some (keptText text) |>.filter (· ≠ []), [], []⟩ rest := by
  have slot := @arguments_slot builders calls uri tag text indent blank rest fun _ => last
  have starts := startsString_literal tag (comma ++ ((Slot.ofText text indent).code ++ rest))
  have alone : startsString (trimLeft (comma ++ ((Slot.ofText text indent).code ++ rest))) = false := by
    rcases Slot.holds_or_blank text blank with holds | empty
    · rw [if_pos holds.filled] at separated
      rcases separated with rfl | rfl <;> rfl
    · rw [empty.unfilled] at separated
      obtain rfl := separated
      exact (congrArg startsString (trimLeft_append_of_allBlank empty.blank rest)).trans last
  have read := strings?_literal tag (comma ++ ((Slot.ofText text indent).code ++ rest))
  rw [alone] at read
  have trimmed := trimLeft_of_startsString starts
  rw [arguments_strings calls _ (by rw [trimmed]; exact starts) (by rw [trimmed]; exact read)]
  change proceed builders calls ⟨uri, some tag, none, [], []⟩ _ = _
  rcases Slot.holds_or_blank text blank with holds | empty
  · rw [holds.filled] at slot
    rw [if_pos holds.filled] at separated
    refine Eq.trans ?_ slot
    rcases separated with rfl | rfl
    · exact proceed_comma builders calls _ _
    · rw [List.cons_append, proceed_comma]
      exact arguments_blank builders calls _ (show allBlank [' '] by decide) _
  · rw [empty.unfilled] at separated
    obtain rfl := separated
    rw [empty.eq_nil]
    exact proceed_blank builders calls _ empty.blank rest

/-- A text that begins with a call, and how the reader goes on in this call. -/
def Begins (builders : Builders) (text : List Char)
    (inside : List Call → Option (Element × List Char)) : Prop :=
  ∃ first rest, opening? builders (trimLeft text) = some (first, rest) ∧
    item? builders (trimLeft text) = some (.opening first, rest) ∧
    eat? [')'] (trimLeft text) = none ∧ ∀ calls, arguments builders calls first rest = inside calls

theorem Begins.arguments_eq {builders : Builders} {text : List Char}
    {inside : List Call → Option (Element × List Char)} (begins : Begins builders text inside)
    (calls : List Call) (call : Call) : arguments builders calls call text = inside (call :: calls) := by
  obtain ⟨first, rest, _, found, open', read⟩ := begins
  rw [arguments_opening calls call open' found, read]

theorem Begins.congr {builders : Builders} {text : List Char}
    {inside other : List Call → Option (Element × List Char)} (begins : Begins builders text inside)
    (same : ∀ calls, inside calls = other calls) : Begins builders text other := by
  obtain ⟨first, rest, opening, found, open', read⟩ := begins
  exact ⟨first, rest, opening, found, open', fun calls => (read calls).trans (same calls)⟩

theorem begins_builder {builders : Builders} (wellFormed : builders.WellFormed) {entry : Builder}
    (member : entry ∈ builders.entries) {indent tail rest : List Char} (blank : allBlank indent)
    {mark : Char} (marked : mark = '.' ∨ mark = '(') {tag : Option (List Char)}
    (tagged : tag? (mark :: tail) = some (tag, '(' :: rest)) :
    Begins builders (indent ++ (entry.identifier.toList ++ mark :: tail))
      fun calls => arguments builders calls ⟨entry.uri, tag, none, [], []⟩ rest := by
  obtain ⟨filled, chars⟩ := chars_of_isIdentifier (wellFormed.identifier entry member)
  have other : continuesIdentifier mark = false := by
    rcases marked with rfl | rfl <;> decide
  have different : entry.identifier.toList ≠ "etree".toList := fun same =>
    wellFormed.identifier_ne_etree entry member (String.toList_inj.mp same)
  have unequal : '=' ≠ mark := by
    rcases marked with rfl | rfl <;> decide
  have opening : opening? builders (entry.identifier.toList ++ mark :: tail) =
      some (⟨entry.uri, tag, none, [], []⟩, rest) := by
    unfold opening?
    rw [identifier?_append filled chars other]
    simp only [Option.bind_eq_bind, Option.bind_some, String.ofList_toList,
      Builders.find?_identifier wellFormed member, tagged, eat?, if_true, Option.pure_def]
  refine ⟨⟨entry.uri, tag, none, [], []⟩, rest, ?_, ?_, ?_, fun calls => rfl⟩
  all_goals rw [trimLeft_append_of_allBlank blank, trimLeft_name filled chars]
  · exact opening
  · rw [item?, startsString_name filled chars, eat?_cons_name (by decide) _ filled chars,
      eat?_commentToken_name filled chars other (.inl different),
      identifier?_append filled chars other]
    simp only [Option.bind_eq_bind, Option.bind_some, eat?_cons_of_ne unequal, opening]
    rfl
  · exact eat?_cons_name (by decide) _ filled chars _

theorem allBlank_indentAt (depth : Nat) : allBlank (indentAt depth) := allBlank_replicate _

theorem begins_opening {builders : Builders} (wellFormed : builders.WellFormed) {tag : Tag}
    (resolved : builders.resolve tag.name.uri = some (builders.builderOf tag)) (depth : Nat)
    {rest : List Char}
    (last : (Opening.ofTag (builders.builderOf tag) tag depth).argument →
      startsString (trimLeft rest) = false) :
    Begins builders ((Opening.ofTag (builders.builderOf tag) tag depth).code ++ rest) fun calls =>
      behind builders (Opening.ofTag (builders.builderOf tag) tag depth).argument calls
        (openCall builders tag) rest := by
  obtain ⟨entry, member, known, uri⟩ := Builders.entry_of_resolve wellFormed resolved
  have blank := allBlank_indentAt depth
  unfold Opening.ofTag at last ⊢
  rw [← known] at last ⊢
  unfold openCall
  rw [← uri]
  by_cases plain : isIdentifier tag.name.localName
  · rw [if_pos plain] at last ⊢
    obtain ⟨filled, chars⟩ := chars_of_isIdentifier plain
    simp only [List.append_assoc, List.cons_append] at last ⊢
    refine (begins_builder wellFormed member blank (.inl rfl) ?_).congr fun calls =>
      arguments_slot builders calls _ _ _ blank last
    unfold tag?
    rw [show eat? ['.'] ('.' :: _) = some _ from rfl]
    simp only [identifier?_append filled chars (show continuesIdentifier '(' = false by decide)]
    rfl
  · rw [if_neg plain] at last ⊢
    simp only [List.append_assoc, List.cons_append] at last ⊢
    refine (begins_builder wellFormed member blank (.inr rfl) rfl).congr fun calls => ?_
    apply arguments_literalTag builders calls _ _ _ blank (last trivial)
    cases (Slot.ofText (tag.text.getD "").toList (indentAt depth)).filled with
    | false => rfl
    | true =>
      rw [if_pos rfl]
      change (if _ then _ else _) = _ ∨ (if _ then _ else _) = _
      rw [if_neg (by decide)]
      split
      · exact .inl rfl
      · exact .inr rfl

def fullCall (builders : Builders) (tag : Tag) (inner : Content) : Call :=
  { openCall builders tag with
    children := (builders.keptContent inner).nodes
    attributes := tag.attributes.map keptAttribute }

theorem filter_map_ofList (kept : List Char) :
    ((some kept).filter (· ≠ [])).map String.ofList = (some (String.ofList kept)).filter (· ≠ "") := by
  by_cases none : kept = []
  · rw [none]
    rfl
  · have other : String.ofList kept ≠ "" := by simpa using none
    rw [Option.filter_some_pos (by simpa using none), Option.filter_some_pos (by simpa using other)]
    rfl

theorem Builders.uriFor_ne_empty {builders : Builders} (wellFormed : builders.WellFormed) {tag : Tag}
    (resolved : builders.resolve tag.name.uri = some (builders.builderOf tag)) :
    builders.uriFor tag.name ≠ "" := by
  obtain ⟨entry, member, _, uri⟩ := Builders.entry_of_resolve wellFormed resolved
  rw [← uri]
  exact wellFormed.uri_ne_empty entry member

/-- The element that a call makes is the one that a script keeps. -/
theorem element?_fullCall {builders : Builders} (wellFormed : builders.WellFormed) {tag : Tag}
    (resolved : builders.resolve tag.name.uri = some (builders.builderOf tag)) (inner : Content) :
    (fullCall builders tag inner).element? =
      some ⟨builders.keptTag tag, builders.keptContent inner⟩ := by
  have filled := Builders.uriFor_ne_empty wellFormed resolved
  have name : Name.within (some (builders.uriFor tag.name)) tag.name.localName =
      ⟨some (builders.uriFor tag.name), tag.name.localName⟩ := by
    simp [Name.within, filled]
  simp only [Call.element?, fullCall, openCall, Option.map_some, String.ofList_toList, name,
    Content.ofNodes_nodes, filter_map_ofList]
  rfl

theorem leave_root {builders : Builders} {call : Call} {element : Element}
    (made : call.element? = some element) (rest : List Char) :
    leave builders [] call rest = some (element, rest) := by
  rw [leave.eq_def, made]

theorem leave_child {builders : Builders} {call : Call} {element : Element}
    (made : call.element? = some element) (outer : Call) (calls : List Call) (rest : List Char) :
    leave builders (outer :: calls) call rest =
      proceed builders calls { outer with children := outer.children ++ [.element element] } rest := by
  rw [leave.eq_def, made]
  rfl

/-- Lines that are read as the children of any call that they stand in. -/
def ReadAs (builders : Builders) (lines : List Char) (content : Content) : Prop :=
  ∀ calls call rest, arguments builders calls call (lines ++ rest) =
    arguments builders calls { call with children := call.children ++ content.nodes } rest

theorem begins_callText {builders : Builders} (wellFormed : builders.WellFormed) {tag : Tag}
    (resolved : builders.resolve tag.name.uri = some (builders.builderOf tag)) (depth : Nat)
    {inner : Content} {lines : List Char} (read : ReadAs builders lines (builders.keptContent inner))
    (rest : List Char) :
    Begins builders (callText builders depth tag inner lines ++ rest) fun calls =>
      leave builders calls (fullCall builders tag inner) rest := by
  unfold callText
  by_cases childless : inner.isEmpty
  · have empty : inner = .empty := by
      cases inner with
      | empty => rfl
      | comment _ _ => simp [Content.isEmpty] at childless
      | element _ _ _ => simp [Content.isEmpty] at childless
    subst empty
    rw [if_pos childless]
    simp only [List.append_assoc]
    by_cases bare : tag.attributes.isEmpty
    · have none := List.isEmpty_iff.mp bare
      rw [none, List.isEmpty_nil, Bool.not_true, Bool.and_false]
      refine (begins_opening wellFormed resolved depth fun _ => rfl).congr fun calls => ?_
      refine (behind_close builders _ calls _ rest).trans ?_
      rw [fullCall, none]
      rfl
    · rw [Bool.eq_false_iff.mpr bare, Bool.not_false, Bool.and_true]
      refine (begins_opening wellFormed resolved depth fun argument => ?_).congr fun calls => ?_
      · rw [argument]
        rfl
      · rw [behind_commaIf, arguments_argumentLines builders calls _ rfl]
        exact arguments_close builders calls _ rest
  · rw [if_neg childless]
    simp only [List.append_assoc]
    refine (begins_opening wellFormed resolved depth fun argument => ?_).congr fun calls => ?_
    · rw [argument]
      rfl
    · rw [behind_commaIf, arguments_blank _ _ _ (by decide), read,
        arguments_argumentLines builders calls _ (allBlank_indentAt depth),
        arguments_blank _ _ _ (allBlank_indentAt depth)]
      exact arguments_close builders calls _ rest

/-- The lines of a content are read as the content that a script keeps. -/
theorem readAs_contentLines {builders : Builders} (wellFormed : builders.WellFormed) (depth : Nat)
    (content : Content) (covered : builders.Cover content.tags) :
    ReadAs builders (contentLines builders depth content) (builders.keptContent content) := by
  induction content generalizing depth with
  | empty =>
    intro calls call rest
    simp [contentLines, Builders.keptContent, Content.nodes]
  | comment comment others ih =>
    intro calls call rest
    simp only [contentLines, List.append_assoc]
    rw [arguments_comment builders calls call comment (allBlank_indentAt depth), ih depth covered]
    simp [Builders.keptContent, Content.nodes]
  | element tag inner others ihInner ihOthers =>
    intro calls call rest
    have resolved := covered.resolve (show tag ∈ (Content.element tag inner others).tags by
      simp [Content.tags])
    have inside := ihInner (depth + 1) fun other member =>
      covered other (by simp [Content.tags, member])
    have after := ihOthers depth fun other member => covered other (by simp [Content.tags, member])
    simp only [contentLines, List.append_assoc]
    rw [(begins_callText wellFormed resolved depth inside _).arguments_eq,
      leave_child (element?_fullCall wellFormed resolved inner)]
    change proceed builders calls _ (',' :: (['\n'] ++ _)) = _
    rw [proceed_comma, arguments_blank _ _ _ (by decide), after]
    simp [Builders.keptContent, Content.nodes]

theorem trimLeft_rootCall {builders : Builders} (wellFormed : builders.WellFormed) {tag : Tag}
    (resolved : builders.resolve tag.name.uri = some (builders.builderOf tag)) {inner : Content}
    {lines rest : List Char} : trimLeft (callText builders 0 tag inner lines ++ rest) =
      callText builders 0 tag inner lines ++ rest := by
  obtain ⟨entry, member, known, _⟩ := Builders.entry_of_resolve wellFormed resolved
  obtain ⟨filled, chars⟩ := chars_of_isIdentifier (wellFormed.identifier entry member)
  have starts : ∃ tail, callText builders 0 tag inner lines ++ rest = entry.identifier.toList ++ tail := by
    unfold callText Opening.ofTag
    rw [← known]
    split <;> split <;> simp only [indentAt, Nat.mul_zero, List.replicate_zero, List.nil_append,
      List.append_assoc] <;> exact ⟨_, rfl⟩
  obtain ⟨tail, equal⟩ := starts
  rw [equal]
  exact trimLeft_name filled chars tail

/-- The call of the root is read as the root that a script keeps. -/
theorem call?_rootCall {builders : Builders} (wellFormed : builders.WellFormed) {root : Element}
    (covered : builders.Cover root.tags) (rest : List Char) :
    call? builders (rootCall builders root ++ rest) =
      some (⟨builders.keptTag root.tag, builders.keptContent root.content⟩, rest) := by
  have resolved := covered.resolve (show root.tag ∈ root.tags by simp [Element.tags])
  have inside := readAs_contentLines wellFormed 1 root.content fun tag member =>
    covered tag (by simp [Element.tags, member])
  obtain ⟨first, tail, opening, _, _, read⟩ := begins_callText wellFormed resolved 0 inside rest
  rw [trimLeft_rootCall wellFormed resolved] at opening
  unfold call?
  rw [rootCall, opening]
  simp only [Option.bind_eq_bind, Option.bind_some, read]
  exact leave_root (element?_fullCall wellFormed resolved root.content) rest

theorem statements_eq (document : Xml.Document) (text : List Char) : statements document text =
    match eat? leadingToken (trimLeft text) with
    | some rest => (placed? rest).bind fun (comment, rest) =>
      statements { document with leading := document.leading ++ [comment] } rest
    | none =>
      match eat? trailingToken (trimLeft text) with
      | some rest => (placed? rest).bind fun (comment, rest) =>
        statements { document with trailing := comment :: document.trailing } rest
      | none => (eat? printToken (trimLeft text)).map fun _ => document := by
  rw [statements]
  split
  · rename_i before
    simp only [before]
    split <;> rename_i found <;> simp only [found, Option.bind_none, Option.bind_some]
  · rename_i absent
    simp only [absent]
    split
    · rename_i behind
      simp only [behind]
      split <;> rename_i found <;> simp only [found, Option.bind_none, Option.bind_some]
    · rename_i other
      simp only [other]

theorem statements_blank (document : Xml.Document) {blank : List Char} (h : allBlank blank)
    (text : List Char) : statements document (blank ++ text) = statements document text := by
  rw [statements_eq, statements_eq, trimLeft_append_of_allBlank h]

theorem placed?_comment (comment : Comment) (rest : List Char) :
    placed? (commentCall (Slot.ofText comment.text.toList []) ++ ([')', '\n'] ++ rest)) =
      some (keptComment comment, '\n' :: rest) := by
  have token : commentCall (Slot.ofText comment.text.toList []) ++ ([')', '\n'] ++ rest) =
      commentToken ++ ((Slot.ofText comment.text.toList []).code ++ ')' :: ')' :: '\n' :: rest) := by
    unfold commentCall commentToken
    simp only [List.append_assoc, List.cons_append, List.nil_append]
  have trimmed (tail : List Char) : trimLeft (commentToken ++ tail) = commentToken ++ tail := rfl
  have closing : trimLeft (')' :: '\n' :: rest) = ')' :: '\n' :: rest := rfl
  have read := comment?_slot comment (show allBlank [] from rfl) (')' :: '\n' :: rest)
  unfold placed?
  rw [token, trimmed, eat?_append]
  simp only [Option.bind_eq_bind, Option.bind_some, read, closing, eat?, if_true, Option.pure_def]

theorem placement_append {method : String} {token : List Char} (named : method.toList = token)
    (comment : Comment) (rest : List Char) : placement method comment ++ rest =
      token ++ (commentCall (Slot.ofText comment.text.toList []) ++ ([')', '\n'] ++ rest)) := by
  rw [placement, named, List.append_assoc, List.append_assoc]

theorem statements_leading (document : Xml.Document) (comments : List Comment) (rest : List Char) :
    statements document (comments.flatMap (placement "doc.addprevious(") ++ rest) =
      statements { document with leading := document.leading ++ comments.map keptComment } rest := by
  induction comments generalizing document with
  | nil =>
    rw [List.map_nil, List.append_nil]
    rfl
  | cons comment comments ih =>
    have trimmed (tail : List Char) : trimLeft (leadingToken ++ tail) = leadingToken ++ tail := rfl
    rw [List.flatMap_cons, List.append_assoc,
      placement_append (show "doc.addprevious(".toList = leadingToken from rfl), statements_eq,
      trimmed, eat?_append]
    simp only [placed?_comment, Option.bind_some]
    refine (statements_blank _ (show allBlank ['\n'] by decide) _).trans ?_
    refine (ih _).trans ?_
    rw [List.append_assoc]
    rfl

theorem eat?_leadingToken_trailing (tail : List Char) :
    eat? leadingToken (trailingToken ++ tail) = none := by
  cases found : eat? leadingToken (trailingToken ++ tail) with
  | none => rfl
  | some rest =>
    have equal := congrArg (List.take 8) (eq_append_of_eat? found)
    rw [List.take_append_of_le_length (by decide), List.take_append_of_le_length (by decide)] at equal
    exact absurd equal (by decide)

/-- Every trailing comment is put directly behind the root, before those that are there. -/
theorem statements_trailing (document : Xml.Document) (comments : List Comment) (rest : List Char) :
    statements document (comments.flatMap (placement "doc.addnext(") ++ rest) =
      statements { document with
        trailing := (comments.map keptComment).reverse ++ document.trailing } rest := by
  induction comments generalizing document with
  | nil => rfl
  | cons comment comments ih =>
    have trimmed (tail : List Char) : trimLeft (trailingToken ++ tail) = trailingToken ++ tail := rfl
    rw [List.flatMap_cons, List.append_assoc,
      placement_append (show "doc.addnext(".toList = trailingToken from rfl), statements_eq,
      trimmed, eat?_leadingToken_trailing, eat?_append]
    simp only [placed?_comment, Option.bind_some]
    refine (statements_blank _ (show allBlank ['\n'] by decide) _).trans ?_
    refine (ih _).trans ?_
    rw [List.map_cons, List.reverse_cons, List.append_assoc]
    rfl

theorem statements_epilogue (document : Xml.Document) : statements document epilogue = some document := by
  have begins : ∃ tail, epilogue = printToken ++ tail := by
    unfold epilogue
    rw [show "print(etree.tostring(etree.ElementTree(doc), \n".toList =
      printToken ++ "etree.tostring(etree.ElementTree(doc), \n".toList by decide]
    simp only [List.append_assoc]
    exact ⟨_, rfl⟩
  obtain ⟨tail, equal⟩ := begins
  have trimmed : trimLeft (printToken ++ tail) = printToken ++ tail := rfl
  have name : printToken = 'p' :: "rint(".toList := by decide
  have leading : eat? leadingToken (printToken ++ tail) = none := by
    rw [name]
    exact eat?_cons_of_ne (show 'd' ≠ 'p' by decide) _ _
  have trailing : eat? trailingToken (printToken ++ tail) = none := by
    rw [name]
    exact eat?_cons_of_ne (show 'd' ≠ 'p' by decide) _ _
  rw [statements_eq, equal, trimmed, leading, trailing, eat?_append]
  rfl

theorem after?_append {mark : Char} {first last before : List Char} (unmarked : mark ∉ before)
    (only : mark ∉ first) (rest : List Char) :
    after? (first ++ mark :: last) (before ++ ((first ++ mark :: last) ++ rest)) = some rest := by
  have upTo (text tail : List Char) (free : mark ∉ text) :
      (text ++ mark :: tail).takeWhile (· ≠ mark) = text := by
    rw [List.takeWhile_append_of_pos]
    · simp
    · intro c member
      simpa using fun same : c = mark => free (same ▸ member)
  induction before with
  | nil =>
    have found := eat?_append (first ++ mark :: last) rest
    rw [List.nil_append]
    cases text : (first ++ mark :: last) ++ rest with
    | nil => simp at text
    | cons c tail =>
      rw [text] at found
      rw [after?, found]
  | cons c before ih =>
    have absent : eat? (first ++ mark :: last)
        (c :: before ++ ((first ++ mark :: last) ++ rest)) = none := by
      cases found : eat? (first ++ mark :: last)
          (c :: before ++ ((first ++ mark :: last) ++ rest)) with
      | none => rfl
      | some tail =>
        have equal : (c :: before ++ first) ++ mark :: (last ++ rest) =
            first ++ mark :: (last ++ tail) := by
          simpa using eq_append_of_eat? found
        have free : mark ∉ c :: before ++ first := fun member =>
          (List.mem_append.mp member).elim unmarked only
        have same := congrArg (List.takeWhile (· ≠ mark)) equal
        rw [upTo _ _ free, upTo _ _ only] at same
        have length := congrArg List.length same
        simp only [List.length_append, List.length_cons] at length
        omega
    rw [List.cons_append] at absent ⊢
    rw [after?, absent]
    exact ih fun member => unmarked (List.mem_cons_of_mem c member)

theorem equals_not_mem {name : String} (identifier : isIdentifier name) : '=' ∉ name.toList := by
  intro member
  have allowed := (chars_of_isIdentifier identifier).2 '=' member
  rw [show continuesIdentifier '=' = false by decide] at allowed
  simp at allowed

/-- The root stands behind the first assignment. No name before it has an equals sign. -/
theorem after?_preamble {builders : Builders} (wellFormed : builders.WellFormed) (rest : List Char) :
    after? "doc = ".toList (preamble builders ++ rest) = some rest := by
  have assignment : "doc = ".toList = "doc ".toList ++ '=' :: [' '] := by decide
  have line : "\ndoc = ".toList = ['\n'] ++ "doc = ".toList := by decide
  have imports : '=' ∉ builders.entries.flatMap fun entry =>
      ("from pykml.factory import " ++ entry.factory ++ " as " ++ entry.identifier ++ "\n").toList := by
    intro member
    obtain ⟨entry, listed, inside⟩ := List.mem_flatMap.mp member
    simp only [String.toList_append, List.mem_append] at inside
    rcases inside with (((inside | inside) | inside) | inside) | inside
    · exact absurd inside (by decide)
    · exact equals_not_mem (wellFormed.factory entry listed) inside
    · exact absurd inside (by decide)
    · exact equals_not_mem (wellFormed.identifier entry listed) inside
    · exact absurd inside (by decide)
  have head : '=' ∉ "from __future__ import unicode_literals\n".toList ++
      "from __future__ import print_function\n".toList ++ "from lxml import etree\n".toList := by
    decide
  unfold preamble
  rw [line, assignment, ← List.append_assoc, List.append_assoc _ _ rest]
  refine after?_append (fun member => ?_) (by decide) rest
  rcases List.mem_append.mp member with before | newline
  · exact (List.mem_append.mp before).elim head imports
  · exact absurd newline (by decide)

end Reading

/-- The script of a document whose elements all have builders reads back to what it keeps of the
document. -/
theorem read?_ofDocument (builders : Builders) (wellFormed : builders.WellFormed)
    (document : Xml.Document) (covered : builders.Cover document.root.tags) :
    ∃ script, ofDocument builders document = .ok script ∧
      read? builders script = some (builders.kept document) := by
  refine ⟨_, ofDocument_eq_scriptText builders document covered, ?_⟩
  unfold read? scriptText
  simp only [String.toList_ofList, List.append_assoc]
  rw [Reading.after?_preamble wellFormed]
  simp only [Option.bind_eq_bind, Option.bind_some]
  rw [Reading.call?_rootCall wellFormed covered]
  simp only [Option.bind_some]
  rw [Reading.statements_blank _ (show allBlank ['\n'] by decide), Reading.statements_leading,
    Reading.statements_trailing, Reading.statements_epilogue, List.map_reverse, List.reverse_reverse,
    List.append_nil]
  rfl

theorem read?_ofDocument_broken_text :
    ∃ script, ofDocument .standard ⟨[⟨" a\nb", none⟩], ⟨⟨⟨none, "bad-name"⟩, none, [],
      [⟨⟨some "urn:x", "flag"⟩, none, "1"⟩], some "one\n\n two", none⟩, .empty⟩, []⟩ = .ok script ∧
    read? .standard script = some ⟨[⟨"a b ", none⟩], ⟨⟨⟨some kmlUri, "bad-name"⟩, none, [],
      [⟨⟨some "urn:x", "flag"⟩, none, "1"⟩], some "one two ", none⟩, .empty⟩, []⟩ := by
  have covered : Builders.Cover .standard (Element.tags ⟨⟨⟨none, "bad-name"⟩, none, [],
      [⟨⟨some "urn:x", "flag"⟩, none, "1"⟩], some "one\n\n two", none⟩, .empty⟩) := by
    unfold Builders.Cover
    decide
  obtain ⟨script, made, read⟩ := read?_ofDocument .standard Builders.standard_wellFormed
    ⟨[⟨" a\nb", none⟩], ⟨_, .empty⟩, []⟩ covered
  refine ⟨script, made, read.trans ?_⟩
  decide

end KeyholeMarkup.Script

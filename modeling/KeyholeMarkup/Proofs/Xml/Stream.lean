import KeyholeMarkup.Proofs.Xml.Decoded
import KeyholeMarkup.Proofs.Xml.Trace
import KeyholeMarkup.Xml.Reader
import Mathlib.Data.List.Forall2

/-! Reading keeps the order of the text. The walk of a document that has been read follows the
tokens: start tags open, end tags close the elements they were opened for, comments stand where they
stood. -/
namespace KeyholeMarkup.Xml
open KeyholeMarkup.Source KeyholeMarkup.Text

/-- The name of an element by the name written in its tag. -/
def Scope.elementName? (scope : Scope) (written : List Char) : Option Name :=
  let (bound, localName) := splitName written
  (scope.resolve bound).toOption.map fun uri =>
    Name.within (uri.map String.ofList) (String.ofList localName)

/-- The name of an attribute. Without a prefix it is in no namespace. -/
def Scope.attributeName? (scope : Scope) (written : List Char) : Option Name :=
  match splitName written with
  | (none, localName) => some (.plain (String.ofList localName))
  | (some bound, localName) => (scope.resolve (some bound)).toOption.map fun uri =>
    Name.within (uri.map String.ofList) (String.ofList localName)

def Scope.attribute? (scope : Scope) (entry : WrittenAttribute) : Option Attribute := do
  let name ← scope.attributeName? entry.name
  let value ← (expandReferences (normalizeValue entry.value)).toOption
  return ⟨name, (splitName entry.name).1.map String.ofList, String.ofList value⟩

def WrittenAttribute.isDeclaration (entry : WrittenAttribute) : Bool :=
  (declaredPrefix? entry.name).isSome

def WrittenAttribute.declaration? (entry : WrittenAttribute) : Option Declaration := do
  let bound ← declaredPrefix? entry.name
  let value ← (expandReferences (normalizeValue entry.value)).toOption
  return ⟨bound.map String.ofList, String.ofList value⟩

def Node.events : Node → List Event
  | .comment entry => [.comment entry]
  | .element child => child.events

theorem Content.events_ofNodes (nodes : List Node) :
    (Content.ofNodes nodes).events = nodes.flatMap Node.events := by
  induction nodes with
  | nil => rfl
  | cons node nodes ih =>
    rw [List.flatMap_cons, ← ih]
    cases node with
    | comment _ => rfl
    | element _ => simp [ofNodes, cons, events, Node.events, Element.events]

/-- What is written in a tag after its name, as it is read in the scope of the tag. -/
inductive Scope.Reads (scope : Scope) : WrittenAttribute → Declaration ⊕ Attribute → Prop
  | declares {entry declaration} : entry.declaration? = some declaration →
    Reads scope entry (.inl declaration)
  | belongs {entry kept} : entry.isDeclaration = false → scope.attribute? entry = some kept →
    Reads scope entry (.inr kept)

/-- A tag as it is read from its text. -/
structure Tag.OpenedBy (scope : Scope) (content : List Char) (tag : Tag) : Prop where
  name : scope.elementName? (tagName content) = some tag.name
  nsPrefix : tag.nsPrefix = (splitName (tagName content)).1.map String.ofList
  entries : ∃ entries, List.Forall₂ scope.Reads (tagAttributes true content).attributes entries ∧
    tag.declarations = entries.filterMap Sum.getLeft? ∧
    tag.attributes = entries.filterMap Sum.getRight?
  complete : (tagAttributes true content).fault = none

theorem WrittenAttribute.isDeclaration_of_declaration? {entry : WrittenAttribute}
    {declaration : Declaration} (read : entry.declaration? = some declaration) :
    entry.isDeclaration = true := by
  unfold declaration? at read
  unfold isDeclaration
  cases declared : declaredPrefix? entry.name with
  | none => simp [declared] at read
  | some bound => rfl

/-- An attribute as it is written in a tag: its name in the scope of the tag, and its value. -/
structure Scope.Gives (scope : Scope) (entry : WrittenAttribute) (kept : Attribute) : Prop where
  name : scope.attributeName? entry.name = some kept.name
  nsPrefix : kept.nsPrefix = (splitName entry.name).1.map String.ofList
  value : ValueRead entry.value kept.value.toList

theorem Scope.gives_of_attribute? {scope : Scope} {entry : WrittenAttribute} {kept : Attribute}
    (read : scope.attribute? entry = some kept) : scope.Gives entry kept := by
  unfold Scope.attribute? at read
  cases named : scope.attributeName? entry.name with
  | none => simp [named] at read
  | some name =>
    cases value : expandReferences (normalizeValue entry.value) with
    | error fault => simp [named, value, Except.toOption] at read
    | ok text =>
      simp only [named, value, Except.toOption, Option.bind_eq_bind, Option.bind_some, pure,
        Option.some.injEq] at read
      subst read
      exact ⟨named, rfl, by rw [String.toList_ofList]; exact valueRead_iff.mpr value⟩

theorem attributes_of_reads {scope : Scope} {written : List WrittenAttribute}
    {entries : List (Declaration ⊕ Attribute)} (reads : List.Forall₂ scope.Reads written entries) :
    List.Forall₂ scope.Gives (written.filter (!·.isDeclaration))
      (entries.filterMap Sum.getRight?) := by
  induction reads with
  | nil => exact .nil
  | cons head _ ih =>
    cases head with
    | declares read =>
      rw [List.filterMap_cons_none rfl,
        List.filter_cons_of_neg (by simp [WrittenAttribute.isDeclaration_of_declaration? read])]
      exact ih
    | belongs isAttribute read =>
      rw [List.filter_cons_of_pos (by simp [isAttribute])]
      exact .cons (Scope.gives_of_attribute? read) ih

/-- An element as the tag that opens it says: its name and its attributes, declarations apart, in
the scope of the tag, and where it starts. -/
structure Opens (file : Nat) (scope : Scope) (content : List Char) (start : Nat)
    (element : Element) : Prop where
  name : scope.elementName? (tagName content) = some element.tag.name
  attributes : List.Forall₂ scope.Gives
    ((tagAttributes true content).attributes.filter (!·.isDeclaration)) element.tag.attributes
  complete : (tagAttributes true content).fault = none
  start : ∃ stop, element.tag.span = some (.between file start stop)

/-- What is known of an open element from its tag alone. -/
def OpenElement.tag (element : OpenElement) : Tag :=
  ⟨element.name, element.nsPrefix, element.declarations, element.attributes, none, none⟩

/-- An element between its tags: the scope within it, the name in its start tag and where that
is. -/
structure Frame where
  scope : Scope
  written : List Char
  start : Nat
  element : Element

def scopeWithin : List Frame → Scope
  | [] => Scope.predefined
  | frame :: _ => frame.scope

/-- Tokens without an event: character data and declarations. -/
def Token.isSilent : Token → Bool
  | .text _ | .cdata _ | .other => true
  | _ => false

/-- The character data of a token: text with its references expanded, sections as they stand. -/
inductive Token.Carries : Token → List Char → Prop
  | text {raw lines characters} : LineEndsNormalized raw lines → Expanded lines characters →
    Carries (.text raw) characters
  | cdata {raw characters} : LineEndsNormalized raw characters → Carries (.cdata raw) characters

/-- What is taken from a token as character data. -/
def Token.characters? : Token → Option (List Char)
  | .text raw => (expandReferences (normalizeLineEnds raw)).toOption
  | .cdata raw => some (normalizeLineEnds raw)
  | _ => none

theorem Token.carries_iff {token : Token} {characters : List Char} :
    token.Carries characters ↔ token.characters? = some characters := by
  constructor
  · intro carries
    cases carries with
    | text normalized expands =>
      rw [lineEndsNormalized_iff.mp normalized] at expands
      rw [Token.characters?, expanded_iff.mp expands]
      rfl
    | cdata normalized => rw [Token.characters?, lineEndsNormalized_iff.mp normalized]
  · intro read
    cases token with
    | text raw =>
      cases expands : expandReferences (normalizeLineEnds raw) with
      | error fault => simp [Token.characters?, expands, Except.toOption] at read
      | ok text =>
        rw [Token.characters?, expands] at read
        obtain rfl := Option.some.inj read
        exact .text (lineEndsNormalized_normalizeLineEnds raw) (expanded_iff.mpr expands)
    | cdata raw =>
      obtain rfl := Option.some.inj read
      exact .cdata (lineEndsNormalized_normalizeLineEnds raw)
    | _ => cases read

theorem Token.isSilent_of_characters? {token : Token} {characters : List Char}
    (read : token.characters? = some characters) : token.isSilent := by
  cases token with
  | text _ => rfl
  | cdata _ => rfl
  | _ => simp [characters?] at read

/-- A stream of events that follows some tokens inside the open elements, innermost first. -/
inductive Follows (file : Nat) : List Frame → List Lexeme → List Event → Prop
  | done : Follows file [] [] []
  | opening {stack rest events scope content start stop element} :
    (scopeWithin stack).enter content = .ok scope → Opens file scope content start element →
    Follows file (⟨scope, tagName content, start, element⟩ :: stack) rest events →
    Follows file stack (⟨.opening content, start, stop⟩ :: rest) (.opened element :: events)
  | closing {stack rest events frame start stop} :
    frame.element.tag.span = some (.between file frame.start stop) →
    Follows file stack rest events →
    Follows file (frame :: stack) (⟨.closing frame.written, start, stop⟩ :: rest)
      (.closed frame.element :: events)
  | selfClosing {stack rest events scope content start stop element} :
    (scopeWithin stack).enter content = .ok scope → Opens file scope content start element →
    element.content = .empty → element.tag.span = some (.between file start stop) →
    Follows file stack rest events →
    Follows file stack (⟨.selfClosing content, start, stop⟩ :: rest)
      (.opened element :: .closed element :: events)
  | comment {stack rest events raw start stop entry} :
    LineEndsNormalized raw entry.text.toList → entry.span = some (.between file start stop) →
    Follows file stack rest events →
    Follows file stack (⟨.comment raw, start, stop⟩ :: rest) (.comment entry :: events)
  | silent {stack rest events token start stop} :
    token.isSilent → Follows file stack rest events →
    Follows file stack (⟨token, start, stop⟩ :: rest) events

theorem withoutMark_eq_self {text : List Char} (unmarked : text.head? ≠ some '\ufeff') :
    withoutMark text = text := by
  unfold withoutMark
  split
  · simp at unmarked
  · rfl

namespace Reader

theorem reads_of_entryOf {scope : Scope} {location : Span} {entry : WrittenAttribute}
    {result : Declaration ⊕ Attribute} (read : entryOf scope location entry = .ok result) :
    scope.Reads entry result := by
  unfold entryOf at read
  cases value : expandReferences (normalizeValue entry.value) with
  | error fault => simp [value, bind, Except.bind] at read
  | ok text =>
  simp only [value, bind, Except.bind, pure, Except.pure] at read
  cases declared : declaredPrefix? entry.name with
  | some bound =>
    simp only [declared, Except.ok.injEq] at read
    subst read
    refine .declares ?_
    unfold WrittenAttribute.declaration?
    rw [declared, value]
    rfl
  | none =>
    have isAttribute : entry.isDeclaration = false := by rw [WrittenAttribute.isDeclaration, declared]; rfl
    cases parts : splitName entry.name with
    | mk bound localName =>
    simp only [declared, parts] at read
    have named : ∀ name, scope.attributeName? entry.name = some name →
        scope.attribute? entry = some ⟨name, bound.map String.ofList, String.ofList text⟩ := by
      intro name same
      unfold Scope.attribute?
      rw [same, value, parts]
      rfl
    cases bound with
    | none =>
      simp only [Except.ok.injEq] at read
      subst read
      refine .belongs isAttribute (named _ ?_)
      unfold Scope.attributeName?
      rw [parts]
      rfl
    | some bound =>
      cases found : scope.resolve (some bound) with
      | error missing => simp [found, resolved] at read
      | ok uri =>
        simp only [found, resolved, Except.ok.injEq] at read
        subst read
        refine .belongs isAttribute (named _ ?_)
        unfold Scope.attributeName?
        rw [parts]
        simp only [found]
        rfl

theorem forall₂_of_mapM {scope : Scope} {location : Span} {written : List WrittenAttribute}
    {entries : List (Declaration ⊕ Attribute)}
    (read : written.mapM (entryOf scope location) = .ok entries) :
    List.Forall₂ scope.Reads written entries := by
  induction written generalizing entries with
  | nil =>
    simp only [List.mapM_nil, pure, Except.pure, Except.ok.injEq] at read
    subst read
    exact .nil
  | cons entry written ih =>
    rw [List.mapM_cons] at read
    cases first : entryOf scope location entry with
    | error error => simp [first, bind, Except.bind] at read
    | ok result =>
    cases others : written.mapM (entryOf scope location) with
    | error error => simp [first, others, bind, Except.bind] at read
    | ok rest =>
    simp only [first, others, bind, Except.bind, pure, Except.pure, Except.ok.injEq] at read
    subst read
    exact .cons (reads_of_entryOf first) (ih others)

/-- What the reader knows of an element that it has opened. -/
structure Opened (reader : Reader) (content : List Char) (start : Nat) (element : OpenElement) :
    Prop where
  scope : reader.scope.enter content = .ok element.scope
  single : reader.path = [] → reader.root = none
  written : element.written = tagName content
  start : element.start = start
  text : element.text = none
  children : element.children = []
  openedBy : element.tag.OpenedBy element.scope content

theorem opened_of_openTag {reader : Reader} {content : List Char} {start stop : Nat}
    {element : OpenElement} (read : reader.openTag content start stop = .ok element) :
    Opened reader content start element := by
  unfold openTag at read
  simp only [bind, Except.bind, pure, Except.pure] at read
  cases entered : reader.scope.enter content with
  | error fault => simp [entered] at read
  | ok scope =>
  simp only [entered] at read
  split at read
  · contradiction
  rename_i outside
  cases named : scope.resolve (splitName (tagName content)).1 with
  | error missing => simp [named, resolved] at read
  | ok uri =>
  cases listed : (tagAttributes true content).attributes.mapM (entryOf scope (reader.span start stop)) with
  | error error => simp [named, resolved, listed] at read
  | ok entries =>
  simp only [named, resolved, listed] at read
  split at read
  · contradiction
  rename_i complete
  simp only [Except.ok.injEq] at read
  subst read
  refine ⟨entered, fun empty => ?_, rfl, rfl, rfl, rfl, ?_, rfl,
    ⟨entries, forall₂_of_mapM listed, rfl, rfl⟩, ?_⟩
  · simpa [empty] using outside
  · unfold Scope.elementName?
    simp only [named]
    rfl
  · cases fault : (tagAttributes true content).fault with
    | none => rfl
    | some fault' => exact absurd fault (complete fault')

/-- An element that is read between two tags, and what is known of it before its end. -/
structure Grows (file : Nat) (element : OpenElement) (frame : Frame) : Prop where
  scope : frame.scope = element.scope
  written : frame.written = element.written
  start : frame.start = element.start
  name : frame.element.tag.name = element.name
  attributes : frame.element.tag.attributes = element.attributes
  span : ∃ stop, frame.element.tag.span = some (.between file element.start stop)

/-- The events of the open elements up to now. What opens is an element as it will be. -/
def pathEvents : List OpenElement → List Frame → List Event
  | element :: path, frame :: frames =>
    pathEvents path frames ++ .opened frame.element :: element.children.reverse.flatMap Node.events
  | _, _ => []

/-- The events of all that has been read. -/
def events (reader : Reader) (frames : List Frame) : List Event :=
  reader.leading.reverse.map .comment ++ reader.root.elim [] Element.events ++
    pathEvents reader.path frames ++ reader.trailing.reverse.map .comment

/-- Nothing comes after the root before it is closed, and nothing is open after it. -/
structure Staged (reader : Reader) : Prop where
  trailing : reader.root = none → reader.trailing = []
  path : reader.root ≠ none → reader.path = []

theorem Staged.root_eq_none {reader : Reader} (staged : reader.Staged) {element : OpenElement}
    {outer : List OpenElement} (inside : reader.path = element :: outer) : reader.root = none := by
  cases root : reader.root with
  | none => rfl
  | some closed =>
    have outside := staged.path (by simp [root])
    rw [inside] at outside
    contradiction

theorem Staged.tail {reader : Reader} (staged : reader.Staged) {element : OpenElement}
    {outer : List OpenElement} (inside : reader.path = element :: outer) :
    Staged { reader with path := outer } :=
  ⟨staged.trailing, fun closed => absurd (staged.root_eq_none inside) closed⟩

/-- The root comes when nothing is open and there is no root yet. -/
def Attachable (reader : Reader) : Node → Prop
  | .element _ => reader.path = [] → reader.root = none
  | .comment _ => True

theorem staged_attach {reader : Reader} {node : Node} (staged : reader.Staged) :
    (reader.attach node).Staged := by
  obtain ⟨file, path, leading, trailing, root, warnings⟩ := reader
  obtain ⟨before, after⟩ := staged
  cases path with
  | cons parent outer => exact ⟨before, fun closed => by simpa using after closed⟩
  | nil =>
    cases node with
    | element child => exact ⟨fun absent => by simp [attach] at absent, fun _ => rfl⟩
    | comment entry =>
      cases root with
      | none => exact ⟨before, after⟩
      | some closed => exact ⟨fun absent => by simp [attach] at absent, fun _ => rfl⟩

/-- A node that is attached comes after everything before. -/
theorem events_attach {reader : Reader} {node : Node} (staged : reader.Staged)
    (attachable : reader.Attachable node) {file : Nat} {frames : List Frame}
    (grows : List.Forall₂ (Grows file) reader.path frames) :
    (reader.attach node).events frames = reader.events frames ++ node.events := by
  obtain ⟨source, path, leading, trailing, root, warnings⟩ := reader
  obtain ⟨before, after⟩ := staged
  cases path with
  | cons parent outer =>
    have open' : root = none := by
      cases root with
      | none => rfl
      | some closed => simp at after
    have nothing : trailing = [] := before open'
    cases grows with
    | cons first others =>
      subst open' nothing
      simp [events, attach, pathEvents]
  | nil =>
    cases node with
    | element child =>
      have absent : root = none := attachable rfl
      have nothing : trailing = [] := before absent
      subst absent nothing
      simp [events, attach, pathEvents, Node.events]
    | comment entry =>
      cases root with
      | none =>
        have nothing : trailing = [] := before rfl
        subst nothing
        simp [events, attach, pathEvents, Node.events]
      | some closed => simp [events, attach, pathEvents, Node.events]

theorem grows_attach {reader : Reader} {node : Node} {file : Nat} {frames : List Frame}
    (grows : List.Forall₂ (Grows file) (reader.attach node).path frames) :
    List.Forall₂ (Grows file) reader.path frames := by
  obtain ⟨source, path, leading, trailing, root, warnings⟩ := reader
  cases path with
  | cons parent outer =>
    cases grows with
    | cons first others =>
      exact .cons ⟨first.scope, first.written, first.start, first.name, first.attributes, first.span⟩
        others
  | nil =>
    cases node with
    | element child => exact grows
    | comment entry => cases root <;> exact grows

theorem file_attach (reader : Reader) (node : Node) : (reader.attach node).file = reader.file := by
  unfold attach
  split
  · rfl
  · rfl
  · split <;> rfl

/-- The document has the events up to now, and the events that follow the tokens to come. -/
def Continues (reader : Reader) (document : Document) (lexemes : List Lexeme)
    (coming : List Event → List Event) : Prop :=
  ∃ frames later, List.Forall₂ (Grows reader.file) reader.path frames ∧
    Follows reader.file frames lexemes later ∧
    document.events = reader.events frames ++ coming later

theorem continues_attach {reader : Reader} {node : Node} {document : Document}
    {lexemes : List Lexeme} (continues : (reader.attach node).Continues document lexemes id)
    (staged : reader.Staged) (attachable : reader.Attachable node) :
    reader.Continues document lexemes (node.events ++ ·) := by
  obtain ⟨frames, later, grows, follows, whole⟩ := continues
  rw [file_attach] at grows follows
  have before := grows_attach grows
  refine ⟨frames, later, before, follows, ?_⟩
  rw [whole, events_attach staged attachable before, List.append_assoc]
  rfl

/-- A reader that differs in the text of the innermost open element and the warnings. -/
structure Retold (reader after : Reader) : Prop where
  file : after.file = reader.file
  root : after.root = reader.root
  leading : after.leading = reader.leading
  trailing : after.trailing = reader.trailing
  path : after.path = reader.path ∨ ∃ element outer text, reader.path = element :: outer ∧
    after.path = { element with text := text } :: outer

/-- What becomes of character data: in the innermost open element it is kept before the first child
and reported behind it, unless it is blank. -/
inductive Told (reader : Reader) (characters : List Char) (location : Span) : Reader → Prop
  | outside : reader.path = [] → allBlank characters → Told reader characters location reader
  | kept {element outer} : reader.path = element :: outer → element.children = [] →
    Told reader characters location { reader with
      path := { element with text := some (element.text.getD [] ++ characters) } :: outer }
  | blank {element outer} : reader.path = element :: outer → element.children ≠ [] →
    allBlank characters → Told reader characters location reader
  | dropped {element outer} : reader.path = element :: outer → element.children ≠ [] →
    allBlank characters = false → Told reader characters location
      { reader with warnings := droppedText element characters location :: reader.warnings }

theorem told_of_addText {reader after : Reader} {characters : List Char} {start stop : Nat}
    (added : reader.addText characters start stop = .ok after) :
    reader.Told characters (reader.span start stop) after := by
  unfold addText at added
  split at added
  · rename_i outside
    split at added
    · rename_i blank
      simp only [Except.ok.injEq] at added
      subst added
      exact .outside outside blank
    · simp at added
  · rename_i element outer inside
    split at added
    · rename_i childless
      simp only [Except.ok.injEq] at added
      subst added
      exact .kept inside (by simpa using childless)
    rename_i followed
    split at added
    · rename_i blank
      simp only [Except.ok.injEq] at added
      subst added
      exact .blank inside (by simpa using followed) blank
    · rename_i filled
      simp only [Except.ok.injEq] at added
      subst added
      exact .dropped inside (by simpa using followed) (by simpa using filled)

theorem Told.retold {reader after : Reader} {characters : List Char} {location : Span}
    (told : reader.Told characters location after) : Retold reader after := by
  cases told with
  | outside _ _ => exact ⟨rfl, rfl, rfl, rfl, .inl rfl⟩
  | kept inside _ => exact ⟨rfl, rfl, rfl, rfl, .inr ⟨_, _, _, inside, rfl⟩⟩
  | blank _ _ _ => exact ⟨rfl, rfl, rfl, rfl, .inl rfl⟩
  | dropped _ _ _ => exact ⟨rfl, rfl, rfl, rfl, .inl rfl⟩

theorem Retold.staged {reader after : Reader} (retold : Retold reader after) (staged : reader.Staged) :
    after.Staged := by
  refine ⟨fun absent => ?_, fun closed => ?_⟩
  · rw [retold.trailing]
    exact staged.trailing (retold.root ▸ absent)
  · have outside := staged.path (retold.root ▸ closed)
    rcases retold.path with same | ⟨element, outer, _, inside, _⟩
    · rw [same, outside]
    · rw [outside] at inside
      contradiction

theorem Opened.root_eq_none {reader : Reader} {content : List Char} {start : Nat}
    {element : OpenElement} (opened : reader.Opened content start element) (staged : reader.Staged) :
    reader.root = none := by
  cases root : reader.root with
  | none => rfl
  | some closed =>
    have outside := staged.path (by simp [root])
    rw [opened.single outside] at root
    contradiction

/-- All that one step can do. -/
inductive Stepped (reader : Reader) : Lexeme → Reader → Prop
  | opening {content start stop element} : reader.Opened content start element →
    Stepped reader ⟨.opening content, start, stop⟩ { reader with path := element :: reader.path }
  | selfClosing {content start stop element} : reader.Opened content start element →
    Stepped reader ⟨.selfClosing content, start, stop⟩
      (reader.attach (.element (element.close (reader.span start stop))))
  | closing {start stop element outer} : reader.path = element :: outer →
    Stepped reader ⟨.closing element.written, start, stop⟩
      (attach { reader with path := outer }
        (.element (element.close (reader.span element.start stop))))
  | comment {raw start stop} : Stepped reader ⟨.comment raw, start, stop⟩
      (reader.attach (.comment
        ⟨String.ofList (normalizeLineEnds raw), some (reader.span start stop)⟩))
  | characters {token characters start stop after} : token.characters? = some characters →
    reader.Told characters (reader.span start stop) after → Stepped reader ⟨token, start, stop⟩ after
  | other {start stop} : Stepped reader ⟨.other, start, stop⟩ reader

theorem stepped_of_step {reader after : Reader} {lexeme : Lexeme}
    (stepped : reader.step lexeme = .ok after) : reader.Stepped lexeme after := by
  obtain ⟨token, start, stop⟩ := lexeme
  unfold step at stepped
  cases token with
  | opening content =>
    simp only [bind, Except.bind, pure, Except.pure] at stepped
    split at stepped
    · contradiction
    rename_i element opened
    simp only [Except.ok.injEq] at stepped
    subst stepped
    exact .opening (opened_of_openTag opened)
  | selfClosing content =>
    simp only [bind, Except.bind, pure, Except.pure] at stepped
    split at stepped
    · contradiction
    rename_i element opened
    simp only [Except.ok.injEq] at stepped
    subst stepped
    exact .selfClosing (opened_of_openTag opened)
  | closing name =>
    simp only [closeTag] at stepped
    split at stepped
    · contradiction
    rename_i element outer inside
    split at stepped
    · rename_i same
      simp only [Except.ok.injEq] at stepped
      subst stepped same
      exact .closing inside
    · contradiction
  | text raw =>
    simp only at stepped
    split at stepped
    · rename_i expanded
      exact .characters (by simp [Token.characters?, expanded, Except.toOption])
        (told_of_addText stepped)
    · contradiction
  | cdata raw => exact .characters rfl (told_of_addText stepped)
  | comment raw =>
    simp only [Except.ok.injEq] at stepped
    subst stepped
    exact .comment
  | other =>
    simp only [Except.ok.injEq] at stepped
    subst stepped
    exact .other

theorem Stepped.staged {reader after : Reader} {lexeme : Lexeme}
    (stepped : reader.Stepped lexeme after) (staged : reader.Staged) : after.Staged := by
  cases stepped with
  | opening opened =>
    have absent := opened.root_eq_none staged
    exact ⟨staged.trailing, fun closed => absurd absent closed⟩
  | selfClosing _ => exact staged_attach staged
  | closing inside => exact staged_attach (staged.tail inside)
  | comment => exact staged_attach staged
  | characters _ told => exact told.retold.staged staged
  | other => exact staged

theorem Stepped.file {reader after : Reader} {lexeme : Lexeme} (stepped : reader.Stepped lexeme after) :
    after.file = reader.file := by
  cases stepped with
  | opening _ => rfl
  | selfClosing _ => exact file_attach _ _
  | closing _ => exact file_attach _ _
  | comment => exact file_attach _ _
  | characters _ told => exact told.retold.file
  | other => rfl

/-- Tokens that are all taken, one step after the other. -/
inductive Steps : Reader → List Lexeme → Reader → Prop
  | nil {reader} : Steps reader [] reader
  | cons {reader next after lexeme rest} : reader.Staged → reader.Stepped lexeme next →
    Steps next rest after → Steps reader (lexeme :: rest) after

theorem steps_of_run {reader after : Reader} {lexemes : List Lexeme} (staged : reader.Staged)
    (ran : reader.run lexemes = (after, none)) : Steps reader lexemes after := by
  induction lexemes generalizing reader with
  | nil =>
    simp only [run, Prod.mk.injEq, and_true] at ran
    subst ran
    exact .nil
  | cons lexeme rest ih =>
    unfold run at ran
    split at ran
    · rename_i next stepped
      have known := stepped_of_step stepped
      exact .cons staged known (ih (known.staged staged) ran)
    · simp at ran

theorem Steps.file {reader after : Reader} {lexemes : List Lexeme}
    (steps : Steps reader lexemes after) : after.file = reader.file := by
  induction steps with
  | nil => rfl
  | cons _ stepped _ ih => exact ih.trans stepped.file

theorem staged_initial (file : Nat) : (initial file).Staged := ⟨fun _ => rfl, fun _ => rfl⟩

/-- A document comes from all tokens of its text. -/
theorem steps_of_read {file : Nat} {text : String} {document : Document}
    (parsed : (read file text).result = .ok document) : ∃ after,
      Steps (initial file) (Lexemes.ofText (withoutMark text.toList)).lexemes after ∧
      after.document = .ok document ∧ (read file text).warnings = after.warnings.reverse := by
  unfold read at parsed ⊢
  generalize Lexemes.ofText (withoutMark text.toList) = lexemes at parsed ⊢
  obtain ⟨lexemes, fault⟩ := lexemes
  cases ran : (initial file).run lexemes with
  | mk after error =>
  simp only [ran] at parsed ⊢
  split at parsed
  · contradiction
  · contradiction
  · exact ⟨after, steps_of_run (staged_initial file) ran, parsed, rfl⟩

theorem Retold.continues {reader after : Reader} {document : Document} {lexemes : List Lexeme}
    (retold : Retold reader after) (continues : after.Continues document lexemes id) :
    reader.Continues document lexemes id := by
  obtain ⟨frames, later, grows, follows, whole⟩ := continues
  rw [retold.file] at grows follows
  unfold events at whole
  rw [retold.leading, retold.root, retold.trailing] at whole
  rcases retold.path with same | ⟨element, outer, text, inside, same⟩
  · rw [same] at grows whole
    exact ⟨frames, later, grows, follows, whole⟩
  · rw [same] at grows whole
    cases grows with
    | cons first others =>
      refine ⟨_, later, ?_, follows, ?_⟩
      · rw [inside]
        exact .cons ⟨first.scope, first.written, first.start, first.name, first.attributes,
          first.span⟩ others
      · unfold events
        rw [inside]
        exact whole

theorem scopeWithin_eq {reader : Reader} {file : Nat} {frames : List Frame}
    (grows : List.Forall₂ (Grows file) reader.path frames) : scopeWithin frames = reader.scope := by
  unfold Reader.scope
  generalize reader.path = path at grows
  cases grows with
  | nil => rfl
  | cons first others => exact first.scope

theorem opens_of_opened {reader : Reader} {content : List Char} {start : Nat}
    {element : OpenElement} (opened : reader.Opened content start element) {frame : Frame}
    (grows : Grows reader.file element frame) :
    Opens reader.file element.scope content start frame.element := by
  obtain ⟨name, -, ⟨entries, reads, -, attributes⟩, complete⟩ := opened.openedBy
  refine ⟨?_, ?_, complete, ?_⟩
  · rw [grows.name]
    exact name
  · rw [grows.attributes]
    have listed : element.attributes = entries.filterMap Sum.getRight? := attributes
    rw [listed]
    exact attributes_of_reads reads
  · rw [← opened.start]
    exact grows.span

theorem continues_opening {reader : Reader} {document : Document} {rest : List Lexeme}
    {content : List Char} {start stop : Nat} {element : OpenElement} (staged : reader.Staged)
    (opened : reader.Opened content start element)
    (continues : Continues { reader with path := element :: reader.path } document rest id) :
    reader.Continues document (⟨.opening content, start, stop⟩ :: rest) id := by
  obtain ⟨frames, later, grows, follows, whole⟩ := continues
  cases grows with
  | @cons _ frame _ frames first others =>
    have same : frame = ⟨element.scope, tagName content, start, frame.element⟩ := by
      obtain ⟨scope, written, begun, inner⟩ := frame
      rw [← opened.written, ← opened.start, ← first.scope, ← first.written, ← first.start]
    refine ⟨frames, .opened frame.element :: later, others, ?_, ?_⟩
    · refine .opening (scopeWithin_eq others ▸ opened.scope) (opens_of_opened opened first) ?_
      rw [← same]
      exact follows
    · have nothing := staged.trailing (opened.root_eq_none staged)
      rw [whole]
      simp [events, pathEvents, opened.children, nothing]

theorem continues_selfClosing {reader : Reader} {document : Document} {rest : List Lexeme}
    {content : List Char} {start stop : Nat} {element : OpenElement} (staged : reader.Staged)
    (opened : reader.Opened content start element)
    (continues : Continues
      (reader.attach (.element (element.close (reader.span start stop)))) document rest id) :
    reader.Continues document (⟨.selfClosing content, start, stop⟩ :: rest) id := by
  obtain ⟨frames, later, grows, follows, whole⟩ :=
    continues_attach continues staged fun _ => opened.root_eq_none staged
  have childless : (element.close (reader.span start stop)).content = .empty := by
    rw [OpenElement.close, opened.children]
    rfl
  have known : Grows reader.file element
      ⟨element.scope, element.written, element.start, element.close (reader.span start stop)⟩ :=
    ⟨rfl, rfl, rfl, rfl, rfl, stop, by rw [opened.start]; rfl⟩
  refine ⟨frames, _, grows, .selfClosing (scopeWithin_eq grows ▸ opened.scope)
    (opens_of_opened opened known) childless rfl follows, ?_⟩
  rw [whole, Node.events, Element.events, childless]
  rfl

theorem continues_closing {reader : Reader} {document : Document} {rest : List Lexeme}
    {start stop : Nat} {element : OpenElement} {outer : List OpenElement} (staged : reader.Staged)
    (inside : reader.path = element :: outer)
    (continues : Continues (attach { reader with path := outer }
      (.element (element.close (reader.span element.start stop)))) document rest id) :
    reader.Continues document (⟨.closing element.written, start, stop⟩ :: rest) id := by
  have absent := staged.root_eq_none inside
  obtain ⟨frames, later, grows, follows, whole⟩ := 
    continues_attach continues (staged.tail inside) fun _ => absent
  let frame : Frame := ⟨element.scope, element.written, element.start,
    element.close (reader.span element.start stop)⟩
  have known : Grows reader.file element frame := ⟨rfl, rfl, rfl, rfl, rfl, stop, rfl⟩
  refine ⟨frame :: frames, .closed frame.element :: later, ?_, .closing rfl follows, ?_⟩
  · rw [inside]
    exact .cons known grows
  · have children : (element.close (reader.span element.start stop)).content.events =
        element.children.reverse.flatMap Node.events := Content.events_ofNodes _
    rw [whole]
    simp [events, inside, pathEvents, absent, staged.trailing absent, Node.events, Element.events,
      children, frame]

theorem continues_silent {reader : Reader} {document : Document} {rest : List Lexeme}
    {token : Token} {start stop : Nat} (silent : token.isSilent)
    (continues : reader.Continues document rest id) :
    reader.Continues document (⟨token, start, stop⟩ :: rest) id := by
  obtain ⟨frames, later, grows, follows, whole⟩ := continues
  exact ⟨frames, later, grows, .silent silent follows, whole⟩

theorem Stepped.continues {reader after : Reader} {document : Document} {lexeme : Lexeme}
    {rest : List Lexeme} (stepped : reader.Stepped lexeme after) (staged : reader.Staged)
    (continues : after.Continues document rest id) :
    reader.Continues document (lexeme :: rest) id := by
  cases stepped with
  | opening opened => exact continues_opening staged opened continues
  | selfClosing opened => exact continues_selfClosing staged opened continues
  | closing inside => exact continues_closing staged inside continues
  | comment =>
    obtain ⟨frames, later, grows, follows, whole⟩ := continues_attach continues staged trivial
    exact ⟨frames, _, grows, .comment (lineEndsNormalized_ofList _) rfl follows, whole⟩
  | characters read told =>
    exact continues_silent (Token.isSilent_of_characters? read) (told.retold.continues continues)
  | other => exact continues_silent rfl continues

/-- A document is what is held when nothing is open any more. -/
theorem held_of_document {reader : Reader} {document : Document}
    (ended : reader.document = .ok document) : reader.path = [] ∧
      reader.leading.reverse = document.leading ∧ reader.root = some document.root ∧
      reader.trailing.reverse = document.trailing := by
  unfold Reader.document at ended
  split at ended
  · contradiction
  · contradiction
  · rename_i outside closed
    simp only [Except.ok.injEq] at ended
    subst ended
    exact ⟨outside, rfl, closed, rfl⟩

/-- What is read up to the end of the text is followed by the events of its tokens. -/
theorem continues_run {reader after : Reader} {document : Document} {lexemes : List Lexeme}
    (staged : reader.Staged) (ran : reader.run lexemes = (after, none))
    (ended : after.document = .ok document) : reader.Continues document lexemes id := by
  induction lexemes generalizing reader with
  | nil =>
    simp only [run, Prod.mk.injEq, and_true] at ran
    subst ran
    obtain ⟨outside, leading, closed, trailing⟩ := held_of_document ended
    refine ⟨[], [], ?_, .done, ?_⟩
    · rw [outside]
      exact .nil
    · simp [events, outside, closed, leading, trailing, pathEvents, Document.events]
  | cons lexeme rest ih =>
    unfold run at ran
    split at ran
    · rename_i next stepped
      have known := stepped_of_step stepped
      exact known.continues staged (ih (known.staged staged) ran)
    · simp at ran

end Reader

/-- A document that has been read is walked in the order of its text: one event for each start tag,
end tag and comment, two for each empty-element tag, and no others. -/
theorem follows_of_parse {file : Nat} {text : String} {document : Document}
    (parsed : parse file text = .ok document) :
    (Lexemes.ofText (withoutMark text.toList)).fault = none ∧
      Follows file [] (Lexemes.ofText (withoutMark text.toList)).lexemes
        ((Walk.ofDocument document).trace.map (·.1)) := by
  rw [Walk.map_trace, Walk.events_ofDocument]
  unfold parse read at parsed
  generalize Lexemes.ofText (withoutMark text.toList) = lexemes at parsed ⊢
  obtain ⟨lexemes, fault⟩ := lexemes
  cases ran : (Reader.initial file).run lexemes with
  | mk after error =>
  simp only [ran] at parsed
  split at parsed
  · contradiction
  · contradiction
  · rename_i none'
    have staged : (Reader.initial file).Staged := ⟨fun _ => rfl, fun _ => rfl⟩
    obtain ⟨frames, later, grows, follows, whole⟩ := Reader.continues_run staged ran parsed
    cases grows
    refine ⟨rfl, ?_⟩
    rw [whole]
    exact follows

/-- Line ends of both styles, in a comment and in the value of a prefixed attribute. -/
theorem follows_of_parse_prefixed :
    ∃ document child,
      parse 0 "<!--n\r\nm\r--><k:a xmlns:k='urn:x' k:b='1\r\n&lt;2'>t<c/><!--&lt;--></k:a>" =
        .ok document ∧
      document.root.tag.name = ⟨some "urn:x", "a"⟩ ∧
      document.root.tag.attributes = [⟨⟨some "urn:x", "b"⟩, some "k", "1 <2"⟩] ∧
      child.tag.name = ⟨none, "c"⟩ ∧
      (Walk.ofDocument document).trace.map (·.1) = [.comment ⟨"n\nm\n", some ⟨0, 0, 12⟩⟩,
        .opened document.root, .opened child, .closed child,
        .comment ⟨"&lt;", some ⟨0, 53, 64⟩⟩, .closed document.root] ∧
      Follows 0 [] (Lexemes.ofText (withoutMark
          "<!--n\r\nm\r--><k:a xmlns:k='urn:x' k:b='1\r\n&lt;2'>t<c/><!--&lt;--></k:a>".toList)).lexemes
        ((Walk.ofDocument document).trace.map (·.1)) := by
  have parsed :
      parse 0 "<!--n\r\nm\r--><k:a xmlns:k='urn:x' k:b='1\r\n&lt;2'>t<c/><!--&lt;--></k:a>" =
        .ok ⟨[⟨"n\nm\n", some ⟨0, 0, 12⟩⟩], ⟨⟨⟨some "urn:x", "a"⟩, some "k", [⟨some "k", "urn:x"⟩],
          [⟨⟨some "urn:x", "b"⟩, some "k", "1 <2"⟩], some "t", some ⟨0, 12, 70⟩⟩,
            .element ⟨⟨none, "c"⟩, none, [], [], none, some ⟨0, 49, 53⟩⟩ .empty
              (.comment ⟨"&lt;", some ⟨0, 53, 64⟩⟩ .empty)⟩, []⟩ := by
    rfl
  refine ⟨_, ⟨⟨⟨none, "c"⟩, none, [], [], none, some ⟨0, 49, 53⟩⟩, .empty⟩, parsed, rfl, rfl, rfl, ?_,
    (follows_of_parse parsed).2⟩
  rw [Walk.map_trace, Walk.events_ofDocument]
  rfl

end KeyholeMarkup.Xml

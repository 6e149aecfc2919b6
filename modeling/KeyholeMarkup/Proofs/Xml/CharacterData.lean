import KeyholeMarkup.Proofs.Xml.Positions
import KeyholeMarkup.Proofs.Xml.Stream
import KeyholeMarkup.Proofs.Xml.Tree
import KeyholeMarkup.Xml.Session

/-! What becomes of character data. Inside the root it is part of the text of the element around it,
or it is reported, and the place where it stands decides which: before the first child of the element
or behind it. -/
namespace KeyholeMarkup.Xml
open KeyholeMarkup.Diagnostic KeyholeMarkup.Source KeyholeMarkup.Text

/-- An element around a place in the text: how many elements begin before it, its name as written
and whether a child of it, an element or a comment, ends before the place. -/
structure Enclosing where
  number : Nat
  written : List Char
  followed : Bool
deriving DecidableEq, Repr

/-- A place between two tokens: how many elements begin before it and which are open there,
innermost first. -/
structure Place where
  begun : Nat
  path : List Enclosing
deriving DecidableEq, Repr

def follow : List Enclosing → List Enclosing
  | [] => []
  | enclosing :: outer => { enclosing with followed := true } :: outer

/-- The text of an element with these characters in front of its children. Blank ones may have been
dropped. -/
def Holds (characters : List Char) (text : Option String) : Prop :=
  text = some (String.ofList characters) ∨ text = none ∧ allBlank characters

def Token.isCharacterData : Token → Bool
  | .text _ | .cdata _ => true
  | _ => false

/-- The warning about character data behind a child of an element. -/
def unkeptText (written characters : List Char) (location : Span) : Message where
  code := some "K-1-8"
  title := "Mixed Content Ignored"
  severity := .warning
  problem := some (.markdown
    ("Text after the first child of `<" ++ String.ofList written ++ ">` is not kept"))
  details := [⟨.info, .markdown ("Dropped text: `" ++ String.ofList (trim characters) ++ "`"), none⟩]
  hints := []
  location := some location

namespace Place

def outside : Place := ⟨0, []⟩

/-- The place behind a token. -/
def behind (place : Place) : Token → Place
  | .opening content =>
    ⟨place.begun + 1, ⟨place.begun, tagName content, false⟩ :: place.path⟩
  | .selfClosing _ => ⟨place.begun + 1, follow place.path⟩
  | .closing _ => ⟨place.begun, follow place.path.tail⟩
  | .comment _ => ⟨place.begun, follow place.path⟩
  | .text _ | .cdata _ | .other => place

variable (told : Token → Option (List Char))

/-- What a token at a place adds to the text of the element with a number, given the characters that
tokens carry. -/
def share (place : Place) (number : Nat) (token : Token) : List Char :=
  match place.path with
  | [] => []
  | enclosing :: _ =>
    if enclosing.number = number ∧ enclosing.followed = false then (told token).getD [] else []

/-- The warning about a token at a place: there is none but for characters behind a child. -/
def report? (place : Place) (file : Nat) (lexeme : Lexeme) : Option Message :=
  match place.path, told lexeme.token with
  | enclosing :: _, some characters =>
    if enclosing.followed && !allBlank characters then
      some (unkeptText enclosing.written characters (.between file lexeme.start lexeme.stop))
    else none
  | _, _ => none

def behindAll (place : Place) : List Lexeme → Place
  | [] => place
  | lexeme :: rest => (place.behind lexeme.token).behindAll rest

/-- The characters of all tokens that belong to the text of the element with a number, in order. -/
def textOf (place : Place) (number : Nat) : List Lexeme → List Char
  | [] => []
  | lexeme :: rest =>
    place.share told number lexeme.token ++ (place.behind lexeme.token).textOf number rest

def reports (place : Place) (file : Nat) : List Lexeme → List Message
  | [] => []
  | lexeme :: rest =>
    (place.report? told file lexeme).toList ++ (place.behind lexeme.token).reports file rest

theorem textOf_append (place : Place) (number : Nat) (first second : List Lexeme) :
    place.textOf told number (first ++ second) =
      place.textOf told number first ++ (place.behindAll first).textOf told number second := by
  induction first generalizing place with
  | nil => rfl
  | cons lexeme rest ih => simp only [List.cons_append, textOf, behindAll, ih, List.append_assoc]

theorem reports_append (place : Place) (file : Nat) (first second : List Lexeme) :
    place.reports told file (first ++ second) =
      place.reports told file first ++ (place.behindAll first).reports told file second := by
  induction first generalizing place with
  | nil => rfl
  | cons lexeme rest ih => simp only [List.cons_append, reports, behindAll, ih, List.append_assoc]

/-- Every warning is about a token. -/
theorem location_of_mem_reports {place : Place} {file : Nat} {lexemes : List Lexeme}
    {message : Message} (member : message ∈ place.reports told file lexemes) :
    ∃ lexeme ∈ lexemes, message.location = some (.between file lexeme.start lexeme.stop) := by
  induction lexemes generalizing place with
  | nil => simp [reports] at member
  | cons lexeme rest ih =>
    rw [reports, List.mem_append] at member
    rcases member with here | later
    · refine ⟨lexeme, List.mem_cons_self, ?_⟩
      unfold report? at here
      split at here
      · split at here
        · simp only [Option.toList_some, List.mem_singleton] at here
          subst here
          rfl
        · simp at here
      · simp at here
    · obtain ⟨other, inside, location⟩ := ih later
      exact ⟨other, List.mem_cons_of_mem _ inside, location⟩

/-- Among the warnings, those at the position of a token are about this token. -/
theorem filter_reports (place : Place) (file : Nat) {before rest : List Lexeme} {lexeme : Lexeme}
    (ordered : (before ++ lexeme :: rest).Pairwise fun earlier later => earlier.stop ≤ later.start)
    (extent : ∀ other ∈ before ++ lexeme :: rest, other.start < other.stop) :
    (place.reports told file (before ++ lexeme :: rest)).filter
        (·.location == some (.between file lexeme.start lexeme.stop)) =
      ((place.behindAll before).report? told file lexeme).toList := by
  have others (place : Place) (lexemes : List Lexeme)
      (apart : ∀ other ∈ lexemes, other.start ≠ lexeme.start) :
      (place.reports told file lexemes).filter
        (·.location == some (.between file lexeme.start lexeme.stop)) = [] := by
    rw [List.filter_eq_nil_iff]
    intro message member same
    obtain ⟨other, inside, location⟩ := location_of_mem_reports told member
    rw [beq_iff_eq, location, Option.some.injEq] at same
    exact apart other inside (congrArg Span.start same)
  obtain ⟨-, behind, across⟩ := List.pairwise_append.mp ordered
  have first := others place before (by
    intro other member
    have room := across other member lexeme List.mem_cons_self
    have length := extent other (by simp [member])
    omega)
  have last := others ((place.behindAll before).behind lexeme.token) rest (by
    intro other member
    have room := List.rel_of_pairwise_cons behind member
    have length := extent lexeme (by simp)
    omega)
  rw [reports_append, reports, List.filter_append, List.filter_append, first, last,
    List.nil_append, List.append_nil, List.filter_eq_self]
  intro message member
  have single : message ∈ (place.behindAll before).reports told file [lexeme] := by
    simpa [reports] using member
  obtain ⟨other, inside, location⟩ := location_of_mem_reports told single
  rw [List.mem_singleton] at inside
  rw [location, inside, beq_self_eq_true]

end Place

namespace Reader

/-- The texts of the elements in an open element, and of those around it, as far as they have been
read: in the order in which the elements begin. -/
def pathTexts : List OpenElement → List (Option String)
  | [] => []
  | element :: outer => pathTexts outer ++
      element.keptText :: (element.children.reverse.flatMap Node.tags).map (·.text)

def texts (reader : Reader) : List (Option String) :=
  reader.root.elim [] (fun root => root.tags.map (·.text)) ++ pathTexts reader.path

def enclosing : List OpenElement → List Enclosing
  | [] => []
  | element :: outer =>
    ⟨(pathTexts outer).length, element.written, !element.children.isEmpty⟩ :: enclosing outer

/-- The place that the reader has come to. -/
def place (reader : Reader) : Place := ⟨reader.texts.length, enclosing reader.path⟩

theorem texts_close (element : OpenElement) (span : Span) :
    (element.close span).tags.map (·.text) =
      element.keptText :: (element.children.reverse.flatMap Node.tags).map (·.text) := by
  rw [OpenElement.close, Element.tags, Content.tags_ofNodes]
  rfl

/-- A text as it is once more is known of its element: blank text is dropped when a child comes. -/
inductive Reviewed : Option String → Option String → Prop
  | same {text} : Reviewed text text
  | blank {characters} : allBlank characters → Reviewed (some (String.ofList characters)) none

theorem reviewed_refl (texts : List (Option String)) : List.Forall₂ Reviewed texts texts :=
  List.forall₂_same.mpr fun _ _ => .same

theorem reviewed_keptText (element : OpenElement) (children : List Node)
    (some' : children.isEmpty = false) :
    Reviewed element.keptText { element with children := children }.keptText := by
  unfold OpenElement.keptText
  cases element.text with
  | none => exact .same
  | some text =>
    cases empty : text.isEmpty with
    | true =>
      simp only [empty, Bool.true_or, ↓reduceIte]
      exact .same
    | false =>
      cases blank : allBlank text with
      | false =>
        simp only [empty, blank, Bool.and_false, Bool.or_false, Bool.false_eq_true, ↓reduceIte]
        exact .same
      | true =>
        simp only [empty, blank, some', Bool.not_false, Bool.and_true, Bool.or_true, ↓reduceIte,
          Bool.false_or]
        cases element.children.isEmpty with
        | true => exact .blank blank
        | false => exact .same

theorem texts_attach {reader : Reader} {node : Node} (attachable : reader.Attachable node) :
    List.Forall₂ Reviewed (reader.texts ++ node.tags.map (·.text)) (reader.attach node).texts := by
  obtain ⟨file, path, leading, trailing, root, warnings⟩ := reader
  cases path with
  | nil =>
    cases node with
    | element child =>
      have absent : root = none := attachable rfl
      subst absent
      simp only [texts, attach, pathTexts, Node.tags, Option.elim, List.append_nil, List.nil_append]
      exact reviewed_refl _
    | comment entry =>
      have same : (Reader.attach ⟨file, [], leading, trailing, root, warnings⟩
          (.comment entry)).texts = root.elim [] (fun root => root.tags.map (·.text)) ++ [] := by
        cases root <;> rfl
      rw [same]
      simp only [texts, pathTexts, Node.tags, List.map_nil, List.append_nil]
      exact reviewed_refl _
  | cons parent outer =>
    simp only [texts, attach, pathTexts, List.reverse_cons, List.flatMap_append, List.flatMap_cons,
      List.flatMap_nil, List.append_nil, List.map_append, List.append_assoc, List.cons_append]
    apply List.rel_append (reviewed_refl _)
    apply List.rel_append (reviewed_refl _)
    exact .cons (reviewed_keptText parent _ rfl) (reviewed_refl _)

theorem enclosing_attach (reader : Reader) (node : Node) :
    enclosing (reader.attach node).path = follow (enclosing reader.path) := by
  obtain ⟨file, path, leading, trailing, root, warnings⟩ := reader
  cases path with
  | cons parent outer => rfl
  | nil =>
    cases node with
    | element child => rfl
    | comment entry => cases root <;> rfl

theorem warnings_attach (reader : Reader) (node : Node) :
    (reader.attach node).warnings = reader.warnings := by
  unfold attach
  split
  · rfl
  · rfl
  · split <;> rfl

theorem place_attach {reader : Reader} {node : Node} (attachable : reader.Attachable node) :
    (reader.attach node).place =
      ⟨reader.texts.length + node.tags.length, follow (enclosing reader.path)⟩ := by
  have length := (texts_attach attachable).length_eq
  rw [List.length_append, List.length_map] at length
  rw [place, enclosing_attach, ← length]

/-- Text in front of the children is the last to have been read. -/
theorem texts_childless {reader : Reader} {element : OpenElement} {outer : List OpenElement}
    (inside : reader.path = element :: outer) (childless : element.children = [])
    (absent : reader.root = none) : reader.texts = pathTexts outer ++ [element.keptText] := by
  simp [texts, inside, absent, pathTexts, childless]

theorem texts_closing {reader : Reader} {element : OpenElement} {outer : List OpenElement}
    (inside : reader.path = element :: outer) (absent : reader.root = none) (span : Span) :
    texts { reader with path := outer } ++ (element.close span).tags.map (·.text) =
      reader.texts := by
  simp only [texts, inside, absent, Option.elim, List.nil_append, texts_close, pathTexts]

theorem place_of_told {reader after : Reader} {characters : List Char} {location : Span}
    (told : reader.Told characters location after) : after.place = reader.place := by
  cases told with
  | outside _ _ => rfl
  | kept inside childless =>
    simp [place, texts, inside, enclosing, pathTexts]
  | blank _ _ _ => rfl
  | dropped _ _ _ => rfl

/-- The reader comes from one place to the next with every token. -/
theorem place_of_stepped {reader after : Reader} {lexeme : Lexeme} (staged : reader.Staged)
    (stepped : reader.Stepped lexeme after) : after.place = reader.place.behind lexeme.token := by
  cases stepped with
  | @opening content start stop element opened =>
    have absent := opened.root_eq_none staged
    simp [place, texts, enclosing, pathTexts, absent, opened.children, opened.written, Place.behind]
  | @selfClosing content start stop element opened =>
    have attachable : reader.Attachable (.element (element.close (reader.span start stop))) :=
      opened.single
    have alone := congrArg List.length (texts_close element (reader.span start stop))
    rw [List.length_map, opened.children] at alone
    rw [place_attach attachable, Node.tags, alone]
    rfl
  | @closing start stop element outer inside =>
    have absent := staged.root_eq_none inside
    have length := congrArg List.length
      (texts_closing inside absent (reader.span element.start stop))
    rw [List.length_append, List.length_map] at length
    have attachable : Attachable { reader with path := outer }
        (.element (element.close (reader.span element.start stop))) := fun _ => absent
    rw [place_attach attachable, Node.tags, length]
    simp only [Place.behind, place, inside, enclosing, List.tail_cons]
  | @comment raw start stop =>
    have attachable : reader.Attachable (.comment
      ⟨String.ofList (normalizeLineEnds raw), some (reader.span start stop)⟩) := trivial
    rw [place_attach attachable]
    rfl
  | @characters token _ _ _ _ read told =>
    rw [place_of_told told]
    cases token with
    | text _ => rfl
    | cdata _ => rfl
    | _ => simp [Token.characters?] at read
  | other => rfl

theorem warnings_of_stepped {reader after : Reader} {lexeme : Lexeme}
    (stepped : reader.Stepped lexeme after) :
    after.warnings.reverse =
      reader.warnings.reverse ++ (reader.place.report? Token.characters? reader.file lexeme).toList := by
  cases stepped with
  | opening _ => simp [Place.report?, Token.characters?]
  | selfClosing _ => simp [Place.report?, Token.characters?, warnings_attach]
  | closing _ => simp [Place.report?, Token.characters?, warnings_attach]
  | comment => simp [Place.report?, Token.characters?, warnings_attach]
  | other => simp [Place.report?, Token.characters?]
  | characters read told =>
    cases told with
    | outside outside _ => simp [Place.report?, place, outside, enclosing]
    | kept inside childless => simp [Place.report?, place, inside, enclosing, read, childless]
    | blank inside _ blank => simp [Place.report?, place, inside, enclosing, read, blank]
    | dropped inside followed filled =>
      simp [Place.report?, place, inside, enclosing, read, followed, filled]
      rfl

/-- The characters kept of each element are known from the tokens: they are its text, unless they
are blank. The element that is open has kept no others so far. -/
structure Accounted (reader : Reader) (kept : Nat → List Char) : Prop where
  texts : ∀ number text, reader.texts[number]? = some text → Holds (kept number) text
  current : ∀ element outer, reader.path = element :: outer → element.children = [] →
    kept (pathTexts outer).length = element.text.getD []
  unread : ∀ number, reader.texts.length ≤ number → kept number = []

theorem exists_reviewed {before after : List (Option String)}
    (reviewed : List.Forall₂ Reviewed before after) {number : Nat} {text : Option String}
    (found : after[number]? = some text) :
    ∃ earlier, before[number]? = some earlier ∧ Reviewed earlier text := by
  induction reviewed generalizing number with
  | nil => simp at found
  | cons first others ih =>
    cases number with
    | succ number => exact ih found
    | zero =>
      simp only [List.getElem?_cons_zero, Option.some.injEq] at found
      subst found
      exact ⟨_, rfl, first⟩

theorem Reviewed.holds {earlier text : Option String} (reviewed : Reviewed earlier text)
    {characters : List Char} (held : Holds characters earlier) : Holds characters text := by
  cases reviewed with
  | same => exact held
  | @blank written blank =>
    rcases held with same | ⟨absent, _⟩
    · rw [Option.some.injEq, String.ofList_inj] at same
      exact .inr ⟨rfl, same ▸ blank⟩
    · contradiction

theorem children_attach {reader : Reader} {node : Node} {element : OpenElement}
    {outer : List OpenElement} (inside : (reader.attach node).path = element :: outer) :
    element.children ≠ [] := by
  obtain ⟨file, path, leading, trailing, root, warnings⟩ := reader
  cases path with
  | cons parent outer =>
    simp only [attach, List.cons.injEq] at inside
    rw [← inside.1]
    exact List.cons_ne_nil _ _
  | nil =>
    cases node with
    | element child => simp [attach] at inside
    | comment entry => cases root <;> simp [attach] at inside

theorem accounted_attach {reader : Reader} {node : Node} (attachable : reader.Attachable node)
    {kept : Nat → List Char}
    (texts : ∀ number text, (reader.texts ++ node.tags.map (·.text))[number]? = some text →
      Holds (kept number) text)
    (unread : ∀ number, (reader.texts ++ node.tags.map (·.text)).length ≤ number →
      kept number = []) : (reader.attach node).Accounted kept := by
  have reviewed := texts_attach attachable
  refine ⟨?_, ?_, ?_⟩
  · intro number text found
    obtain ⟨earlier, before, review⟩ := exists_reviewed reviewed found
    exact review.holds (texts number earlier before)
  · intro element outer inside childless
    exact absurd childless (children_attach inside)
  · intro number beyond
    rw [← reviewed.length_eq] at beyond
    exact unread number beyond

theorem Accounted.lt {reader : Reader} {kept : Nat → List Char} (accounted : reader.Accounted kept)
    {number : Nat} (filled : allBlank (kept number) = false) : number < reader.texts.length := by
  by_contra beyond
  rw [accounted.unread number (by omega)] at filled
  contradiction

/-- An element may be added behind those that have been read, as long as it has no text. -/
theorem Accounted.append {reader : Reader} {kept : Nat → List Char}
    (accounted : reader.Accounted kept) {later : List (Option String)}
    (untold : ∀ text ∈ later, text = none) (number : Nat) (text : Option String)
    (found : (reader.texts ++ later)[number]? = some text) : Holds (kept number) text := by
  by_cases earlier : number < reader.texts.length
  · rw [List.getElem?_append_left earlier] at found
    exact accounted.texts number text found
  · rw [List.getElem?_append_right (by omega)] at found
    have absent := untold text (List.mem_of_getElem? found)
    rw [accounted.unread number (by omega), absent]
    exact .inr ⟨rfl, rfl⟩

theorem keptText_of_text_eq_none {element : OpenElement} (untold : element.text = none) :
    element.keptText = none := by
  rw [OpenElement.keptText, untold]

theorem Accounted.opening {reader : Reader} {kept : Nat → List Char} {content : List Char}
    {start : Nat} {element : OpenElement} (accounted : reader.Accounted kept)
    (opened : reader.Opened content start element) (absent : reader.root = none) :
    Accounted { reader with path := element :: reader.path } kept := by
  have texts : Reader.texts { reader with path := element :: reader.path } =
      reader.texts ++ [none] := by
    simp [Reader.texts, absent, pathTexts, opened.children, keptText_of_text_eq_none opened.text]
  have length : reader.texts.length = (pathTexts reader.path).length := by
    simp [Reader.texts, absent]
  refine ⟨?_, ?_, ?_⟩
  · rw [texts]
    exact accounted.append fun text member => List.mem_singleton.mp member
  · intro inner outer inside childless
    obtain ⟨rfl, rfl⟩ := List.cons.inj inside
    rw [opened.text, ← length]
    exact accounted.unread _ (Nat.le_refl _)
  · intro number beyond
    rw [texts, List.length_append] at beyond
    exact accounted.unread number (by omega)

/-- Character data in front of the children belongs to the element that was opened last. -/
theorem Accounted.tell {reader : Reader} {kept : Nat → List Char} {element : OpenElement}
    {outer : List OpenElement} (accounted : reader.Accounted kept) (absent : reader.root = none)
    (inside : reader.path = element :: outer) (childless : element.children = [])
    (characters : List Char) :
    Accounted { reader with
        path := { element with text := some (element.text.getD [] ++ characters) } :: outer }
      fun number => kept number ++ if (pathTexts outer).length = number then characters else [] := by
  have current := accounted.current element outer inside childless
  have before := texts_childless inside childless absent
  generalize told : { element with text := some (element.text.getD [] ++ characters) } = after
  have after_text : after.text = some (element.text.getD [] ++ characters) := by rw [← told]
  have after_children : after.children = [] := by rw [← told]; exact childless
  have texts : Reader.texts { reader with path := after :: outer } =
      pathTexts outer ++ [after.keptText] :=
    texts_childless rfl after_children absent
  refine ⟨?_, ?_, ?_⟩
  · intro number text found
    rw [texts] at found
    by_cases here : (pathTexts outer).length = number
    · subst here
      rw [List.getElem?_concat_length, Option.some.injEq] at found
      subst found
      simp only [↓reduceIte, current, OpenElement.keptText, after_text, after_children,
        List.isEmpty_nil, Bool.not_true, Bool.false_and, Bool.or_false]
      cases element.text.getD [] ++ characters with
      | nil => exact .inr ⟨rfl, rfl⟩
      | cons => exact .inl rfl
    · simp only [here, ↓reduceIte, List.append_nil]
      have earlier : number < (pathTexts outer).length := by
        have inside := (List.getElem?_eq_some_iff.mp found).1
        rw [List.length_append, List.length_singleton] at inside
        omega
      apply accounted.texts number text
      rw [List.getElem?_append_left earlier] at found
      rw [before, List.getElem?_append_left earlier]
      exact found
  · intro inner outer' inside' _
    obtain ⟨rfl, rfl⟩ := List.cons.inj inside'
    simp only [↓reduceIte, current, after_text, Option.getD_some]
  · intro number beyond
    rw [texts, List.length_append, List.length_singleton] at beyond
    have elsewhere : (pathTexts outer).length ≠ number := by omega
    simp only [elsewhere, ↓reduceIte, List.append_nil]
    exact accounted.unread number (by rw [before, List.length_append, List.length_singleton]; exact beyond)

theorem share_of_characters?_eq_none (place : Place) (number : Nat) {token : Token}
    (silent : token.characters? = none) : place.share Token.characters? number token = [] := by
  unfold Place.share
  rw [silent]
  cases place.path <;> simp

theorem Accounted.stepped {reader after : Reader} {kept : Nat → List Char} {lexeme : Lexeme}
    (accounted : reader.Accounted kept) (staged : reader.Staged)
    (stepped : reader.Stepped lexeme after) :
    after.Accounted fun number =>
      kept number ++ reader.place.share Token.characters? number lexeme.token := by
  have silent (hush : lexeme.token.characters? = none) :
      (fun number => kept number ++ reader.place.share Token.characters? number lexeme.token) = kept := by
    funext number
    rw [share_of_characters?_eq_none _ _ hush, List.append_nil]
  cases stepped with
  | opening opened =>
    rw [silent rfl]
    exact accounted.opening opened (opened.root_eq_none staged)
  | @selfClosing content start stop element opened =>
    rw [silent rfl]
    have attachable : reader.Attachable (.element (element.close (reader.span start stop))) :=
      opened.single
    apply accounted_attach attachable
    · apply accounted.append
      simp [Node.tags, texts_close, opened.children, keptText_of_text_eq_none opened.text]
    · intro number beyond
      rw [List.length_append] at beyond
      exact accounted.unread number (by omega)
  | @closing start stop element outer inside =>
    rw [silent rfl]
    have absent := staged.root_eq_none inside
    have same := texts_closing inside absent (reader.span element.start stop)
    have attachable : Attachable { reader with path := outer }
        (.element (element.close (reader.span element.start stop))) := fun _ => absent
    apply accounted_attach attachable
    · rw [Node.tags, same]
      exact accounted.texts
    · rw [Node.tags, same]
      exact accounted.unread
  | @comment raw start stop =>
    rw [silent rfl]
    have attachable : reader.Attachable (.comment
      ⟨String.ofList (normalizeLineEnds raw), some (reader.span start stop)⟩) := trivial
    apply accounted_attach attachable
    · apply accounted.append
      simp [Node.tags]
    · intro number beyond
      rw [List.length_append] at beyond
      exact accounted.unread number (by omega)
  | other =>
    rw [silent rfl]
    exact accounted
  | @characters token characters _ _ _ read told =>
    have kept_here (unkept : ∀ number, reader.place.share Token.characters? number token = []) :
        (fun number => kept number ++ reader.place.share Token.characters? number token) = kept := by
      funext number
      rw [unkept, List.append_nil]
    cases told with
    | outside outside _ =>
      rw [kept_here (by simp [Place.share, place, outside, enclosing])]
      exact accounted
    | blank inside followed _ =>
      rw [kept_here (by simp [Place.share, place, inside, enclosing, followed])]
      exact accounted
    | dropped inside followed _ =>
      rw [kept_here (by simp [Place.share, place, inside, enclosing, followed])]
      exact ⟨accounted.texts, accounted.current, accounted.unread⟩
    | @kept element outer inside childless =>
      have added := accounted.tell (staged.root_eq_none inside) inside childless characters
      have share (number : Nat) : reader.place.share Token.characters? number token =
          if (pathTexts outer).length = number then characters else [] := by
        simp [Place.share, place, inside, enclosing, childless, read]
      simpa only [share] using added

/-- What a run makes of the tokens: texts and warnings as the places of the tokens say. -/
theorem accounted_steps {reader after : Reader} {lexemes : List Lexeme} {kept : Nat → List Char}
    (steps : Steps reader lexemes after) (accounted : reader.Accounted kept) :
    after.Accounted fun number =>
      kept number ++ reader.place.textOf Token.characters? number lexemes := by
  induction steps generalizing kept with
  | nil => simpa only [Place.textOf, List.append_nil] using accounted
  | cons staged stepped _ ih =>
    have later := ih (accounted.stepped staged stepped)
    rw [place_of_stepped staged stepped] at later
    simpa only [Place.textOf, List.append_assoc] using later

theorem warnings_steps {reader after : Reader} {lexemes : List Lexeme}
    (steps : Steps reader lexemes after) :
    after.warnings.reverse =
      reader.warnings.reverse ++ reader.place.reports Token.characters? reader.file lexemes := by
  induction steps with
  | nil => simp [Place.reports]
  | cons staged stepped _ ih =>
    rw [ih, warnings_of_stepped stepped, stepped.file, place_of_stepped staged stepped,
      Place.reports, List.append_assoc]

theorem characters_steps {reader after : Reader} {lexemes : List Lexeme}
    (steps : Steps reader lexemes after) {lexeme : Lexeme} (member : lexeme ∈ lexemes)
    (data : lexeme.token.isCharacterData) :
    ∃ characters, lexeme.token.characters? = some characters := by
  induction steps with
  | nil => simp at member
  | cons _ stepped _ ih =>
    rcases List.mem_cons.mp member with rfl | later
    · cases stepped with
      | characters read _ => exact ⟨_, read⟩
      | _ => simp [Token.isCharacterData] at data
    · exact ih later

theorem accounted_initial (file : Nat) : (initial file).Accounted fun _ => [] := by
  constructor <;> simp [initial, texts, pathTexts]

theorem texts_document {reader : Reader} {document : Document}
    (ended : reader.document = .ok document) : reader.texts = document.root.tags.map (·.text) := by
  obtain ⟨outside, -, closed, -⟩ := held_of_document ended
  simp [texts, outside, closed, pathTexts]

theorem Accounted.holds {reader : Reader} {kept : Nat → List Char} {document : Document}
    (accounted : reader.Accounted kept) (ended : reader.document = .ok document) {number : Nat}
    {tag : Tag} (found : document.root.tags[number]? = some tag) : Holds (kept number) tag.text := by
  apply accounted.texts number
  rw [texts_document ended, List.getElem?_map, found]
  rfl

/-- What is not blank is the text of an element. -/
theorem Accounted.exists_tag {reader : Reader} {kept : Nat → List Char} {document : Document}
    (accounted : reader.Accounted kept) (ended : reader.document = .ok document) {number : Nat}
    (filled : allBlank (kept number) = false) :
    ∃ tag, document.root.tags[number]? = some tag ∧ tag.text = some (String.ofList (kept number)) := by
  have begun := accounted.lt filled
  rw [texts_document ended, List.length_map] at begun
  have found := List.getElem?_eq_getElem begun
  refine ⟨_, found, ?_⟩
  rcases accounted.holds ended found with same | ⟨-, blank⟩
  · exact same
  · simp only [filled, Bool.false_eq_true] at blank

end Reader

/-- What becomes of characters that are not all blank, given what is in front of the children of each
element. Behind a child they are reported, by one warning at their location. Before it they are not
reported, and they are part of the text of the element around them, which is made of all such
characters. -/
def KeptOrReported (document : Document) (reports : List Message) (texts : Nat → List Char)
    (enclosing : Enclosing) (characters : List Char) (location : Span) : Prop :=
  let located := reports.filter (·.location == some location)
  if enclosing.followed then located = [unkeptText enclosing.written characters location]
  else located = [] ∧ ∃ tag earlier later, document.root.tags[enclosing.number]? = some tag ∧
    texts enclosing.number = earlier ++ characters ++ later ∧
    tag.text = some (String.ofList (earlier ++ characters ++ later))

theorem keptOrReported {document : Document} {file : Nat} {lexemes before rest : List Lexeme}
    {lexeme : Lexeme} {enclosing : Enclosing} {outer : List Enclosing} {characters : List Char}
    {told : Token → Option (List Char)} (split : lexemes = before ++ lexeme :: rest)
    (ordered : lexemes.Pairwise fun earlier later => earlier.stop ≤ later.start)
    (extent : ∀ other ∈ lexemes, other.start < other.stop)
    (texts : ∀ number, allBlank (Place.outside.textOf told number lexemes) = false →
      ∃ tag, document.root.tags[number]? = some tag ∧
        tag.text = some (String.ofList (Place.outside.textOf told number lexemes)))
    (inside : (Place.outside.behindAll before).path = enclosing :: outer)
    (read : told lexeme.token = some characters) (filled : allBlank characters = false) :
    KeptOrReported document (Place.outside.reports told file lexemes)
      (fun number => Place.outside.textOf told number lexemes) enclosing characters
      (.between file lexeme.start lexeme.stop) := by
  subst split
  have located := Place.filter_reports told .outside file ordered extent
  cases followed : enclosing.followed with
  | true =>
    simpa [KeptOrReported, followed, Place.report?, inside, read, filled] using located
  | false =>
    have share : (Place.outside.behindAll before).share told enclosing.number lexeme.token =
        characters := by
      simp [Place.share, inside, followed, read]
    have whole := Place.textOf_append told .outside enclosing.number before (lexeme :: rest)
    rw [Place.textOf, share, ← List.append_assoc] at whole
    have whole_filled : allBlank
        (Place.outside.textOf told enclosing.number (before ++ lexeme :: rest)) = false := by
      simp only [allBlank, whole, List.all_append] at filled ⊢
      simp [filled]
    obtain ⟨tag, found, text⟩ := texts enclosing.number whole_filled
    rw [whole] at text
    simp only [KeptOrReported, followed, Bool.false_eq_true, ↓reduceIte]
    refine ⟨?_, tag, _, _, found, whole, text⟩
    simpa [Place.report?, inside, read, followed] using located

/-- Character data in a document that has been read is accounted for. The diagnostics are the
warnings about its tokens, in order; the text of each element is made of the tokens in front of its
children; and each token inside the root that is not blank is kept or reported, once and not both. -/
theorem kept_or_reported_of_parse {session after : Session} {text : String} {document : Document}
    (parsed : session.parse text = (.ok document, after)) :
    let lexemes := (Lexemes.ofText (withoutMark text.toList)).lexemes
    ∃ told : Token → Option (List Char),
      (∀ token characters, told token = some characters ↔ token.Carries characters) ∧
      let reports := Place.outside.reports told session.file lexemes
      let texts := fun number => Place.outside.textOf told number lexemes
      after.diagnostics = session.diagnostics ++ reports ∧
      (∀ number tag, document.root.tags[number]? = some tag → Holds (texts number) tag.text) ∧
      ∀ before lexeme rest enclosing outer, lexemes = before ++ lexeme :: rest →
        lexeme.token.isCharacterData → (Place.outside.behindAll before).path = enclosing :: outer →
        ∃ characters, lexeme.token.Carries characters ∧
          (allBlank characters = false → KeptOrReported document reports texts enclosing characters
            (.between session.file lexeme.start lexeme.stop)) := by
  intro lexemes
  refine ⟨Token.characters?, fun token characters => Token.carries_iff.symm, ?_⟩
  intro reports texts
  simp only [Session.parse] at parsed
  split at parsed
  rotate_left
  · simp at parsed
  rename_i document' result
  simp only [Prod.mk.injEq, Except.ok.injEq] at parsed
  obtain ⟨rfl, rfl⟩ := parsed
  obtain ⟨reader, steps, ended, warnings⟩ := Reader.steps_of_read result
  have accounted := Reader.accounted_steps steps (Reader.accounted_initial session.file)
  have start : (Reader.initial session.file).place = Place.outside := rfl
  simp only [List.nil_append, start] at accounted
  have reported := Reader.warnings_steps steps
  refine ⟨?_, fun number tag found => accounted.holds ended found, ?_⟩
  · rw [warnings, reported]
    rfl
  · intro before lexeme rest enclosing outer split' data inside
    obtain ⟨characters, read⟩ := Reader.characters_steps steps (by simp [lexemes, split']) data
    refine ⟨characters, Token.carries_iff.mpr read, ?_⟩
    intro filled
    exact keptOrReported split' (Lexemes.pairwise_ofText _) (Lexemes.start_lt_stop_ofText _)
      (fun number => accounted.exists_tag ended) inside read filled

/-- Text with a reference and line ends of both styles, a section, and text behind a child. -/
theorem kept_or_reported_of_parse_sections :
    ∃ document after, (Session.forFile 0).parse "<a>x&amp;\r<![CDATA[\r\n<]]><b>y</b> z\r </a>" =
        (.ok document, after) ∧ document.root.tag.text = some "x&\n\n<" ∧
      after.diagnostics = [unkeptText ['a'] [' ', 'z', '\n', ' '] ⟨0, 33, 37⟩] ∧
      ∃ told : Token → Option (List Char),
        (∀ token characters, told token = some characters ↔ token.Carries characters) ∧
        after.diagnostics = Place.outside.reports told 0
          (Lexemes.ofText (withoutMark "<a>x&amp;\r<![CDATA[\r\n<]]><b>y</b> z\r </a>".toList)).lexemes := by
  have parsed : (Session.forFile 0).parse "<a>x&amp;\r<![CDATA[\r\n<]]><b>y</b> z\r </a>" =
      (.ok ⟨[], ⟨⟨⟨none, "a"⟩, none, [], [], some "x&\n\n<", some ⟨0, 0, 41⟩⟩,
        .element ⟨⟨none, "b"⟩, none, [], [], some "y", some ⟨0, 25, 33⟩⟩ .empty .empty⟩, []⟩,
        ⟨0, [unkeptText ['a'] [' ', 'z', '\n', ' '] ⟨0, 33, 37⟩]⟩) := by
    rfl
  obtain ⟨told, carried, reported, -, -⟩ := kept_or_reported_of_parse parsed
  exact ⟨_, _, parsed, rfl, rfl, told, carried, reported⟩

end KeyholeMarkup.Xml

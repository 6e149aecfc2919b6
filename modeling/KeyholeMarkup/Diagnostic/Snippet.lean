import KeyholeMarkup.Source.Files
import KeyholeMarkup.Text.Blank
import KeyholeMarkup.Text.Width

/-! Source snippets: the lines around labelled ranges of a text, drawn with underlines, arrows and
a margin of line numbers. Ranges count characters. A range within one line is underlined and its
message hangs from the middle; a range over several lines is bracketed in the margin, from an
arrow at its first character to its message below its last line. -/
namespace KeyholeMarkup.Diagnostic.Snippet
open KeyholeMarkup.Text

/-- A line of the text: the offset of its first character, its length with the line break, and its
characters without trailing blanks. -/
structure Line where
  offset : Nat
  length : Nat
  shown : List Char
deriving DecidableEq, Repr

def Line.contains (line : Line) (offset : Nat) : Bool :=
  line.offset ≤ offset && offset < line.offset + line.length

def isLineBreak (c : Char) : Bool :=
  c.toNat == 0xA || c.toNat == 0xB || c.toNat == 0xC || c.toNat == 0xD || c.toNat == 0x85 ||
    c.toNat == 0x2028 || c.toNat == 0x2029

/-- The line that starts at `offset` and has the characters of `raw`, last one first. -/
def Line.ofRaw (offset : Nat) (raw : List Char) : Line :=
  ⟨offset, raw.length, (trimLeft raw).reverse⟩

/-- Splits a text after each line break, a carriage return with its line feed counting as one.
`raw` holds the current line so far, last character first. -/
def linesFrom (offset : Nat) (raw : List Char) : List Char → List Line
  | [] => if raw.isEmpty then [] else [Line.ofRaw offset raw]
  | c :: rest =>
    if isLineBreak c && !(c == '\r' && rest.head? == some '\n') then
      Line.ofRaw offset (c :: raw) :: linesFrom (offset + raw.length + 1) [] rest
    else linesFrom offset (c :: raw) rest

/-- The lines of a text; the empty text has none. -/
def linesOf (text : List Char) : List Line := linesFrom 0 [] text

/-- The position of the line that an offset belongs to. The end of the text belongs to the last
line. Where there are no lines, no offset has one. -/
def lineAt? (lines : List Line) (total offset : Nat) : Option Nat :=
  if lines.isEmpty || total < offset then none
  else some ((lines.takeWhile (·.offset ≤ offset)).length - 1)

structure Label where
  start : Nat
  stop : Nat
  message : String
deriving DecidableEq, Repr

def Label.last (label : Label) : Nat := max (label.stop - 1) label.start

def Label.length (label : Label) : Nat := label.stop - label.start

def Label.contains (label : Label) (offset : Nat) : Bool :=
  label.start ≤ offset && offset < label.stop

structure Placed extends Label where
  index : Nat
  multiline : Bool
deriving DecidableEq, Repr

/-- Finds the lines of a label. Labels that start or end beyond the text are left out. -/
def place? (lines : List Line) (total : Nat) (entry : Label × Nat) : Option Placed := do
  let (label, index) := entry
  let first ← lineAt? lines total label.start
  let last ← if label.stop ≤ label.start then some first else lineAt? lines total (label.stop - 1)
  return { toLabel := label, index, multiline := first != last }

/-- A label as it shows on one line: the column it is attached to, and whether its message is
written there. -/
structure Attached where
  column : Nat
  label : Placed
  saysMessage : Bool
deriving DecidableEq, Repr

/-- What the rows of one line have in common. -/
structure Scene where
  lineNumberWidth : Nat
  /-- The labels over several lines, longest first. -/
  brackets : List Placed
  position : Nat
  line : Line
  /-- The label whose bracket begins or ends in the margin of this line. -/
  marginLabel : Option Attached
  attached : List Attached

/-- Which row of a line is drawn: the text, an ellipsis in its place, a blank, or the underline
(`isArrow = false`) or arrow row of one label. -/
inductive Row
  | text
  | ellipsis
  | blank
  | label (number : Nat) (isArrow : Bool)
deriving DecidableEq

def Row.isLine : Row → Bool
  | .text | .ellipsis => true
  | _ => false

/-- What one margin column shows, as found so far. -/
structure MarginCell where
  corner : Option Bool
  across : Option Placed
  down : Bool
  pointer : Option Bool

def attachedRow (attached : List Attached) (label : Placed) : Nat :=
  let row := (attached.takeWhile (·.label != label)).length
  if row < attached.length then row else 0

/-- Adds the bracket of one label to a margin column. Brackets of the columns before it only
matter where they run across this one. -/
def MarginCell.add (scene : Scene) (row : Row) (column : Nat) (cell : MarginCell)
    (entry : Placed × Nat) : MarginCell :=
  let (label, place) := entry
  let lineStop := scene.line.offset + scene.line.length
  let own := place == column
  let inMargin := scene.marginLabel.any (·.label == label)
  let isStart := scene.line.contains label.start
  let isEnd := scene.line.contains label.last
  if !(label.start ≤ lineStop && label.stop > scene.line.offset) then cell
  else if inMargin && row.isLine then { cell with pointer := some isStart }
  else if !isStart && (!isEnd || row.isLine) then { cell with down := cell.down || own }
  else
    match row with
    | .label number isArrow =>
      let labelRow := attachedRow scene.attached label
      if number == labelRow then
        let cell := if inMargin then { cell with down := own } else cell
        if inMargin && isStart then cell
        else if isArrow then
          { cell with across := some label, corner := if own then some isStart else cell.corner }
        else if !isStart then { cell with down := cell.down || own }
        else cell
      else { cell with down := cell.down || (own && (isStart != decide (number < labelRow))) }
    | _ => cell

def marginCell (scene : Scene) (row : Row) (column : Nat) : String :=
  let count := scene.brackets.length
  let cell := (scene.brackets.zipIdx.take (column + 1)).foldl (MarginCell.add scene row column)
    ⟨none, none, false, none⟩
  let across := cell.across.filter fun label =>
    scene.marginLabel.all (·.label != label) || !row.isLine
  match cell.corner, across, cell.down, cell.pointer with
  | some isStart, _, _, _ => if isStart then "╭─" else "╰─"
  | none, some _, _, _ => "──"
  | none, none, true, _ => if row == .ellipsis then "┆ " else "│ "
  | none, none, false, some isStart =>
    let isOwn := scene.marginLabel.any fun margin =>
      scene.brackets[column]? == some margin.label
    if column == count then "▶ "
    else if isOwn then (if isStart then "╭─" else "├─")
    else "──"
  | none, none, false, none => "  "

def spaces (count : Nat) : String := String.ofList (List.replicate count ' ')

/-- The line number, the rule beside it and the brackets. -/
def margin (scene : Scene) (row : Row) : String :=
  let number := toString (scene.position + 1)
  let head :=
    match row with
    | .text => spaces (scene.lineNumberWidth - number.length) ++ number ++ " │"
    | .ellipsis => spaces (scene.lineNumberWidth + 1) ++ "┆"
    | _ => spaces (scene.lineNumberWidth + 1) ++ "│"
  let columns :=
    if row == .blank || scene.brackets.isEmpty then [] else List.range (scene.brackets.length + 1)
  " " ++ head ++ " " ++ String.join (columns.map (marginCell scene row))

/-- A tab fills up to the next multiple of four columns. Other blanks take one column. -/
def shownWidth (c : Char) (column : Nat) : Nat :=
  if c = '\t' then (column / 4 + 1) * 4 - column
  else if isBlank c then 1
  else Text.width c

def shownText (line : Line) : String :=
  String.join <| line.shown.zipIdx.map fun (c, column) =>
    if isBlank c then spaces (shownWidth c column) else String.singleton c

/-- A cell under the character of a column: `head` once and `tail` for the other columns that the
character takes. -/
def cell (line : Line) (column : Nat) (head tail : Char) : String :=
  let width := (line.shown[column]?.map (shownWidth · column)).getD 1
  if width = 0 then "" else String.ofList (head :: List.replicate (width - 1) tail)

def isInMargin (scene : Scene) (attached : Attached) : Bool :=
  scene.marginLabel.any (·.label == attached.label)

/-- The label whose arrow passes a column on the way down to its row. -/
def arrowThrough? (scene : Scene) (column row : Nat) : Option Attached :=
  (scene.attached.zipIdx.find? fun (attached, place) =>
    !isInMargin scene attached && attached.column == column && row ≤ place).map (·.1)

def isUnderlined (scene : Scene) (column : Nat) : Bool :=
  scene.attached.any fun attached =>
    !attached.label.multiline && attached.label.contains (scene.line.offset + column)

/-- The width of the drawing below a line, in characters of the line. -/
def arrowLength (scene : Scene) : Nat :=
  scene.attached.foldl (fun length attached =>
    if attached.label.multiline then scene.line.length
    else max length (attached.label.stop - scene.line.offset)) 0 + 2

def underlineCell (scene : Scene) (row column : Nat) : String :=
  let underlined := row == 0 && isUnderlined scene column
  match arrowThrough? scene column row with
  | some attached =>
    if underlined then cell scene.line column '┬' '─'
    else if attached.label.multiline && row == 0 then cell scene.line column '▲' ' '
    else cell scene.line column '│' ' '
  | none =>
    if underlined then cell scene.line column '─' '─' else cell scene.line column ' ' ' '

def arrowCell (scene : Scene) (row : Nat) (attached : Attached) (column : Nat) : String :=
  let isAcross := ((decide (column > attached.column)) != attached.label.multiline) ||
    (attached.saysMessage && column > attached.column)
  if column == attached.column && !isInMargin scene attached then
    let foot := if attached.label.multiline then (if attached.saysMessage then '┴' else '╯') else '╰'
    cell scene.line column foot '─'
  else if isAcross then cell scene.line column '─' '─'
  else if (arrowThrough? scene column row).isSome then cell scene.line column '│' ' '
  else cell scene.line column ' ' ' '

/-- The two rows below a line that belong to one of its labels. -/
def labelRows (scene : Scene) (entry : Attached × Nat) : List String :=
  let (attached, row) := entry
  let columns := List.range (arrowLength scene)
  let message := if attached.saysMessage then " " ++ attached.label.message else ""
  [margin scene (.label row false) ++ String.join (columns.map (underlineCell scene row)),
    margin scene (.label row true) ++ String.join (columns.map (arrowCell scene row attached)) ++
      message]

/-- How a bracket shows on a line: at its first character, or with its message at its last. -/
def bracketOn? (line : Line) (skipStart : Bool) (label : Placed) : Option Attached :=
  if line.contains label.start && !skipStart then
    some ⟨label.start - line.offset, label, false⟩
  else if line.contains label.last then some ⟨label.last - line.offset, label, true⟩
  else none

/-- Leftmost first; of labels in one column the one that starts later is first. -/
def precedes (first second : Attached) : Bool :=
  first.column < second.column ||
    (first.column == second.column && first.label.start ≥ second.label.start)

def leftmost? : List Attached → Option Attached
  | [] => none
  | attached :: rest =>
    match leftmost? rest with
    | none => some attached
    | some other => if precedes attached other then some attached else some other

def sceneOf (lineNumberWidth : Nat) (labels brackets : List Placed) (entry : Line × Nat) : Scene :=
  let (line, position) := entry
  let marginLabel := leftmost? (brackets.filterMap (bracketOn? line false))
  let ends := brackets.filterMap fun label =>
    bracketOn? line (marginLabel.any (·.label == label)) label
  let inner := (labels.filter fun label =>
      !label.multiline && line.offset ≤ label.start && label.stop ≤ line.offset + line.length).map
    fun label => (⟨max ((label.start + label.stop) / 2) label.start - line.offset, label, true⟩ :
      Attached)
  ⟨lineNumberWidth, brackets, position, line, marginLabel, (ends ++ inner).mergeSort precedes⟩

/-- The rows of the lines in order. Of a run of lines without labels one row is kept. -/
def sceneRows : Bool → List Scene → List String
  | _, [] => []
  | skipping, scene :: rest =>
    if scene.attached.isEmpty && scene.marginLabel.isNone then
      let within := scene.brackets.any (·.contains scene.line.offset)
      if skipping then sceneRows true rest
      else if within then margin scene .ellipsis :: sceneRows true rest
      else margin scene .blank :: sceneRows true rest
    else
      (margin scene .text ++ shownText scene.line) ::
        scene.attached.zipIdx.flatMap (labelRows scene) ++ sceneRows false rest

def digits (n : Nat) : Nat := (toString n).length

/-- The report on labelled ranges of a text: a header, the location of `anchor`, the lines with
their labels, and a closing rule. Without labels only the header is left. -/
def render (header path : String) (text : List Char) (anchor : Nat) (labels : List Label) :
    String :=
  let lines := linesOf text
  let total := text.length
  let placed := labels.zipIdx.filterMap (place? lines total)
  match placed with
  | [] => header
  | first :: others =>
    let start := (others.map (·.start)).foldl min first.start
    let stop := (others.map (·.stop)).foldl max first.stop
    let from' := (lineAt? lines total start).getD 0
    let upTo := ((lineAt? lines total (max (stop - 1) start)).map (· + 1)).getD lines.length
    let width := digits upTo
    let brackets := (placed.filter (·.multiline)).mergeSort fun a b => a.length ≥ b.length
    let location :=
      match lineAt? lines total anchor with
      | some line =>
        toString (line + 1) ++ ":" ++
          toString (anchor - ((lines[line]?.map (·.offset)).getD 0) + 1)
      | none => "?:?"
    let scenes := ((lines.zipIdx.take upTo).drop from').map (sceneOf width placed brackets)
    String.intercalate "\n" <|
      [header, spaces (width + 2) ++ "╭─[" ++ path ++ ":" ++ location ++ "]",
        spaces (width + 2) ++ "│"] ++
      sceneRows false scenes ++
      [String.ofList (List.replicate (width + 2) '─') ++ "╯"]

end KeyholeMarkup.Diagnostic.Snippet

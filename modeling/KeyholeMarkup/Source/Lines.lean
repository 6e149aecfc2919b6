import KeyholeMarkup.Text.Bytes

/-! Rows and columns of byte offsets. Rows count line feeds and columns count characters; both
start at zero. -/
namespace KeyholeMarkup.Source
open KeyholeMarkup.Text

structure Location where
  offset : Nat
  row : Nat
  column : Nat
deriving DecidableEq, Repr

/-- The byte offsets at which the lines of a text start, and its length in bytes. -/
structure LineIndex where
  starts : List Nat
  total : Nat
deriving DecidableEq, Repr

def lineFeed : UInt8 := 10

/-- One pass over the bytes: a line starts at the beginning and after each line feed. -/
def LineIndex.ofText (text : List Char) : LineIndex :=
  let bytes := text.flatMap String.utf8EncodeChar
  ⟨0 :: (bytes.zipIdx.filter (·.1 == lineFeed)).map (·.2 + 1), bytes.length⟩

def LineIndex.lineCount (index : LineIndex) : Nat := index.starts.length

/-- Where a search ends: at the wanted entry, or at the position where it would be inserted. -/
inductive Landing
  | found (position : Nat)
  | absent (position : Nat)
deriving DecidableEq, Repr

/-- Binary search from the position `low` on and before `high`. -/
def searchBetween (entries : List Nat) (wanted low high : Nat) (inside : high ≤ entries.length) :
    Landing :=
  if left : low < high then
    let middle := low + (high - low) / 2
    have reached : middle < entries.length := by omega
    if entries[middle] = wanted then .found middle
    else if entries[middle] < wanted then searchBetween entries wanted (middle + 1) high inside
    else searchBetween entries wanted low middle (Nat.le_of_lt reached)
  else .absent low
termination_by high - low

def search (entries : List Nat) (wanted : Nat) : Landing :=
  searchBetween entries wanted 0 entries.length (Nat.le_refl _)

/-- The line that an offset is on: the one that starts there, or the one before the first line that
starts later. -/
def LineIndex.row? (index : LineIndex) (offset : Nat) : Option Nat :=
  match search index.starts offset with
  | .found row => some row
  | .absent 0 => none
  | .absent (next + 1) => some next

/-- The location of an offset in the text that the index was made from. Offsets past the end stand
for the end. Within a character the column counts bytes instead. There is no location if the index
has no line that starts at the offset or before. -/
def LineIndex.locate? (index : LineIndex) (text : List Char) (offset : Nat) : Option Location :=
  let offset := min offset index.total
  (index.row? offset).bind fun row =>
    (index.starts[row]?).bind fun start =>
      if offset < start then none
      else
        let line := between? start offset text
        some ⟨offset, row, (line.map List.length).getD (offset - start)⟩

end KeyholeMarkup.Source

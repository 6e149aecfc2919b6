/-! Byte offsets into text. Positions in sources count the bytes of the UTF-8 encoding, while the
text itself is a list of characters. -/
namespace KeyholeMarkup.Text

def byteLength (text : List Char) : Nat := text.foldr (fun c total => c.utf8Size + total) 0

def takeBytes (limit : Nat) : List Char → List Char
  | [] => []
  | c :: rest => if c.utf8Size ≤ limit then c :: takeBytes (limit - c.utf8Size) rest else []

/-- The number of characters before a byte offset, if a character starts or the text ends there. -/
def charsBefore? (offset : Nat) (text : List Char) : Option Nat :=
  let head := takeBytes offset text
  if byteLength head = offset then some head.length else none

/-- The characters between two byte offsets, if a character starts or the text ends at both. -/
def between? (start stop : Nat) (text : List Char) : Option (List Char) :=
  match charsBefore? start text, charsBefore? stop text with
  | some first, some last => if first ≤ last then some ((text.take last).drop first) else none
  | _, _ => none

@[simp] theorem byteLength_nil : byteLength [] = 0 := rfl

@[simp] theorem byteLength_cons (c : Char) (text : List Char) :
    byteLength (c :: text) = c.utf8Size + byteLength text := rfl

@[simp] theorem byteLength_append (first second : List Char) :
    byteLength (first ++ second) = byteLength first + byteLength second := by
  induction first with
  | nil => simp
  | cons c rest ih => simp [ih, Nat.add_assoc]

theorem length_le_byteLength (text : List Char) : text.length ≤ byteLength text := by
  induction text with
  | nil => exact Nat.le_refl 0
  | cons c rest ih =>
    have size := c.utf8Size_pos
    rw [List.length_cons, byteLength_cons]
    omega

theorem prefix_of_byteLength_le {text first second : List Char} (begins : first <+: text)
    (goesOn : second <+: text) (shorter : byteLength first ≤ byteLength second) :
    first <+: second := by
  rcases List.prefix_or_prefix_of_prefix begins goesOn with done | longer
  · exact done
  · obtain ⟨rest, whole⟩ := longer
    cases rest with
    | nil => exact ⟨[], by rw [← whole, List.append_nil, List.append_nil]⟩
    | cons c others =>
      have size := c.utf8Size_pos
      rw [← whole, byteLength_append, byteLength_cons] at shorter
      omega

theorem takeBytes_append (first second : List Char) :
    takeBytes (byteLength first) (first ++ second) = first := by
  induction first with
  | nil =>
    cases second with
    | nil => rfl
    | cons c rest =>
      have positive := c.utf8Size_pos
      simp only [byteLength_nil, List.nil_append, takeBytes]
      rw [if_neg (by omega)]
  | cons c rest ih =>
    simp only [byteLength_cons, List.cons_append, takeBytes]
    rw [if_pos (by omega), Nat.add_sub_cancel_left, ih]

/-- A boundary between characters is found at its byte offset. -/
theorem charsBefore?_append (first second : List Char) :
    charsBefore? (byteLength first) (first ++ second) = some first.length := by
  simp [charsBefore?, takeBytes_append]

theorem between?_append (first piece last : List Char) :
    between? (byteLength first) (byteLength (first ++ piece)) (first ++ piece ++ last) = some piece := by
  have start := charsBefore?_append first (piece ++ last)
  rw [← List.append_assoc] at start
  have shorter : first.length ≤ (first ++ piece).length := by simp
  rw [between?, start, charsBefore?_append (first ++ piece) last]
  simp only [shorter, if_true, List.take_left, List.drop_left]

end KeyholeMarkup.Text

/-! Blank characters and the operations on text that skip them: trimming and splitting into words
and lines. -/
namespace KeyholeMarkup.Text

/-- The White_Space property: the ASCII blanks, the line breaks and the space characters. -/
def isBlank (c : Char) : Bool :=
  let n := c.toNat
  (9 ≤ n && n ≤ 13) || n == 0x20 || n == 0x85 || n == 0xA0 || n == 0x1680 ||
    (0x2000 ≤ n && n ≤ 0x200A) || n == 0x2028 || n == 0x2029 || n == 0x202F || n == 0x205F ||
    n == 0x3000

theorem isBlank_of_isWhitespace (c : Char) (h : c.isWhitespace) : isBlank c := by
  simp only [Char.isWhitespace, Bool.or_eq_true, decide_eq_true_eq] at h
  rcases h with ((rfl | rfl) | rfl) | rfl <;> decide

def allBlank (text : List Char) : Bool := text.all isBlank

def trimLeft (text : List Char) : List Char := text.dropWhile isBlank

def trimRight (text : List Char) : List Char := (trimLeft text.reverse).reverse

def trim (text : List Char) : List Char := trimRight (trimLeft text)

theorem trimLeft_eq_nil_iff (text : List Char) : trimLeft text = [] ↔ allBlank text := by
  induction text with
  | nil => simp [trimLeft, allBlank]
  | cons c rest ih =>
    simp only [trimLeft, allBlank, List.dropWhile_cons, List.all_cons, Bool.and_eq_true] at *
    split <;> simp_all

/-- The pieces between the characters that satisfy `cut`, empty ones included; there is always one
more piece than there are such characters. -/
def pieces (cut : Char → Bool) : List Char → List (List Char)
  | [] => [[]]
  | c :: rest =>
    if cut c then [] :: pieces cut rest
    else
      match pieces cut rest with
      | [] => [[c]]
      | piece :: others => (c :: piece) :: others

theorem pieces_ne_nil (cut : Char → Bool) (text : List Char) : pieces cut text ≠ [] := by
  cases text with
  | nil => simp [pieces]
  | cons c rest =>
    simp only [pieces]
    split
    · simp
    · split <;> simp

def lines (text : List Char) : List (List Char) := pieces (· == '\n') text

def words (text : List Char) : List (List Char) := (pieces isBlank text).filter (!·.isEmpty)

def substitute (character : Char) (replacement : List Char) (text : List Char) : List Char :=
  text.flatMap fun c => if c = character then replacement else [c]

end KeyholeMarkup.Text

import KeyholeMarkup.Text.Blank
import KeyholeMarkup.Text.Composition
import KeyholeMarkup.Text.Letter

/-! Names and string literals of Python scripts. A literal is one line of printable characters:
all others are escaped, so a literal ends at the first quote that no backslash precedes. -/
namespace KeyholeMarkup.Script
open KeyholeMarkup.Text

def reservedWords : List String :=
  ["False", "None", "True", "and", "as", "assert", "async", "await", "break", "class", "continue",
    "def", "del", "elif", "else", "except", "finally", "for", "from", "global", "if", "import",
    "in", "is", "lambda", "nonlocal", "not", "or", "pass", "raise", "return", "try", "while",
    "with", "yield"]

def startsIdentifier (c : Char) : Bool := c == '_' || isAlphabetic c

def continuesIdentifier (c : Char) : Bool := c == '_' || isAlphanumeric c

/-- Whether a name stands for itself in a script. Identifiers are composed when they are read, so a
name that is not composed already would be read as another one. -/
def isIdentifier (name : String) : Bool :=
  match name.toList with
  | [] => false
  | first :: rest =>
    startsIdentifier first && rest.all continuesIdentifier && !reservedWords.contains name &&
      isCompatibilityComposed (first :: rest)

/-- Control characters, separators other than the space, format characters and private use. -/
def unprintableRanges : List (Nat × Nat) :=
  [(0x00, 0x1F), (0x7F, 0xA0), (0xAD, 0xAD), (0x1680, 0x1680), (0x2000, 0x200F), (0x2028, 0x202F),
    (0x205F, 0x2064), (0x2066, 0x206F), (0x3000, 0x3000), (0xE000, 0xF8FF), (0xFEFF, 0xFEFF),
    (0xFFF9, 0xFFFB)]

def isPrintable (c : Char) : Bool :=
  unprintableRanges.all fun range => c.toNat < range.1 || range.2 < c.toNat

def hexDigit (digit : Nat) : Char :=
  if digit < 10 then Char.ofNat (48 + digit) else Char.ofNat (87 + digit)

def hexDigits : Nat → Nat → List Char
  | 0, _ => []
  | width + 1, number => hexDigits width (number / 16) ++ [hexDigit (number % 16)]

/-- A character by its code point, in two, four or eight digits. -/
def codePointEscape (c : Char) : List Char :=
  if c.toNat < 0x100 then '\\' :: 'x' :: hexDigits 2 c.toNat
  else if c.toNat < 0x10000 then '\\' :: 'u' :: hexDigits 4 c.toNat
  else '\\' :: 'U' :: hexDigits 8 c.toNat

def escapeChar (quote c : Char) : List Char :=
  if c = '\\' then ['\\', '\\']
  else if c = '\n' then ['\\', 'n']
  else if c = '\r' then ['\\', 'r']
  else if c = '\t' then ['\\', 't']
  else if c = quote then ['\\', c]
  else if isPrintable c then [c]
  else codePointEscape c

def quoteWith (quote : Char) (text : List Char) : List Char :=
  quote :: text.flatMap (escapeChar quote) ++ [quote]

/-- Single quotes, unless that needs an escape which double quotes do not. -/
def preferredQuote (text : List Char) : Char :=
  if text.contains '\'' && !text.contains '"' then '"' else '\''

def literal (text : List Char) : List Char := quoteWith (preferredQuote text) text

def doubleQuoted (text : List Char) : List Char := quoteWith '"' text

/-- What is written for a text after an opening parenthesis. -/
structure Slot where
  code : List Char
  /-- Whether there is a literal at all. -/
  filled : Bool
deriving DecidableEq, Repr

/-- The literal for one line of a text, moved as far to the right as the line itself. Lines that are
blank have none. -/
def lineLiteral (line : List Char) : List Char :=
  if allBlank line then []
  else List.replicate (line.takeWhile isBlank).length ' ' ++ literal (trim line ++ [' ']) ++ ['\n']

/-- Text within a line is one literal. Other text is one literal for each line, on lines of their
own, with the indent of the closing parenthesis after them. -/
def Slot.ofText (text indent : List Char) : Slot :=
  if text.isEmpty then ⟨[], false⟩
  else if text.contains '\n' then
    ⟨'\n' :: (lines text).flatMap lineLiteral ++ indent, (lines text).any (!allBlank ·)⟩
  else ⟨literal text, true⟩

@[simp] theorem length_hexDigits (width number : Nat) : (hexDigits width number).length = width := by
  induction width generalizing number with
  | zero => rfl
  | succ width ih => simp [hexDigits, ih]

theorem escapeChar_ne_nil (quote c : Char) : escapeChar quote c ≠ [] := by
  simp only [escapeChar, codePointEscape]
  repeat' split
  all_goals simp

theorem Slot.ofText_nil (indent : List Char) : Slot.ofText [] indent = ⟨[], false⟩ := rfl

end KeyholeMarkup.Script

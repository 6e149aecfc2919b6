import KeyholeMarkup.Text.Bytes

/-! Tokens of XML text. A lexer reads the text character by character and cuts it into character
data, tags, comments, CDATA sections and the declarations that do not matter for the tree. Tags end
at the first `>` outside quotes. Positions are byte offsets. -/
namespace KeyholeMarkup.Xml

/-- Blanks within markup. -/
def isSpace (c : Char) : Bool := c == ' ' || c == '\t' || c == '\n' || c == '\r'

/-- A token with its text as written: of opening and empty-element tags what stands between the
angle brackets, of closing tags the name, of comments and sections what they enclose. -/
inductive Token
  | text (raw : List Char)
  | opening (content : List Char)
  | selfClosing (content : List Char)
  | closing (name : List Char)
  | cdata (raw : List Char)
  | comment (raw : List Char)
  /-- The XML declaration, a processing instruction or a document type. -/
  | other
deriving DecidableEq, Repr

structure Lexeme where
  token : Token
  start : Nat
  stop : Nat
deriving DecidableEq, Repr

/-- Markup that is not closed before the text ends, or not begun as any markup is. -/
inductive LexicalFault
  | unknownMarkup
  | openTag
  | openComment
  | openCdata
  | openDoctype
  | openInstruction
  | unnamedDoctype
deriving DecidableEq, Repr

def LexicalFault.message : LexicalFault → String
  | .unknownMarkup => "syntax error: unknown or missed symbol in markup"
  | .openTag => "syntax error: tag not closed: `>` not found before end of input"
  | .openComment => "syntax error: comment not closed: `-->` not found before end of input"
  | .openCdata => "syntax error: CDATA not closed: `]]>` not found before end of input"
  | .openDoctype => "syntax error: DOCTYPE not closed: `>` not found before end of input"
  | .openInstruction =>
    "syntax error: processing instruction or xml declaration not closed: " ++
      "`?>` not found before end of input"
  | .unnamedDoctype =>
    "ill-formed document: `<!DOCTYPE>` declaration does not contain a name of a document type"

inductive Mode
  | text
  /-- Just after `<`. -/
  | markup
  | tag (quote : Option Char)
  /-- Just after `<!`. -/
  | declaration
  | comment
  | cdata
  /-- With the number of angle brackets still open inside. -/
  | doctype (depth : Nat)
  | instruction
deriving DecidableEq, Repr

/-- The state of the lexer. The current token starts at `start`, and `raw` holds its characters,
last one first and without the `<` of markup. Finished tokens are held last one first, too. -/
structure Lexer where
  mode : Mode
  raw : List Char
  start : Nat
  offset : Nat
  finished : List Lexeme
  fault : Option (LexicalFault × Nat)
deriving Repr

namespace Lexer

def initial : Lexer := ⟨.text, [], 0, 0, [], none⟩

def keep (lexer : Lexer) (c : Char) (mode : Mode) : Lexer :=
  { lexer with mode, raw := c :: lexer.raw, offset := lexer.offset + c.utf8Size }

/-- Ends the current token with the `>` at the present offset. -/
def finish (lexer : Lexer) (token : Token) : Lexer :=
  let stop := lexer.offset + 1
  { lexer with
    mode := .text, raw := [], start := stop, offset := stop
    finished := ⟨token, lexer.start, stop⟩ :: lexer.finished }

def fail (lexer : Lexer) (fault : LexicalFault) (offset : Nat) : Lexer :=
  { lexer with fault := some (fault, offset) }

/-- Character data ends where markup begins. Between two tags there may be none. -/
def beginMarkup (lexer : Lexer) : Lexer :=
  let finished :=
    if lexer.raw.isEmpty then lexer.finished
    else ⟨.text lexer.raw.reverse, lexer.start, lexer.offset⟩ :: lexer.finished
  { lexer with
    mode := .markup, raw := [], start := lexer.offset, offset := lexer.offset + 1, finished }

/-- The name in a closing tag, without the blanks after it. -/
def closingName (content : List Char) : List Char :=
  let trimmed := (content.reverse.dropWhile isSpace).reverse
  if trimmed.isEmpty then content else trimmed

def tagToken (raw : List Char) : Token :=
  match raw.reverse with
  | '/' :: name => .closing (closingName name)
  | content =>
    match raw with
    | '/' :: rest => .selfClosing rest.reverse
    | _ => .opening content

def stepTag (lexer : Lexer) (quote : Option Char) (c : Char) : Lexer :=
  match quote with
  | some opened => lexer.keep c (.tag (if c = opened then none else quote))
  | none =>
    if c = '>' then lexer.finish (tagToken lexer.raw)
    else if c = '"' || c = '\'' then lexer.keep c (.tag (some c))
    else lexer.keep c (.tag none)

/-- A comment is `<!--`, its text and `-->`; the two pairs of dashes do not overlap. -/
def finishComment (lexer : Lexer) : Lexer :=
  match lexer.raw.reverse with
  | '!' :: '-' :: '-' :: rest => lexer.finish (.comment (rest.take (rest.length - 2)))
  | _ => lexer.fail .openComment lexer.start

def finishCdata (lexer : Lexer) : Lexer :=
  match lexer.raw.reverse with
  | '!' :: '[' :: 'C' :: 'D' :: 'A' :: 'T' :: 'A' :: '[' :: rest =>
    lexer.finish (.cdata (rest.take (rest.length - 2)))
  | _ => lexer.fail .openCdata lexer.start

/-- A document type has a name after its keyword, which may be in any case. -/
def finishDoctype (lexer : Lexer) : Lexer :=
  let written := lexer.raw.reverse
  if (written.take 8).map Char.toLower = "!doctype".toList then
    if (written.drop 8).all isSpace then lexer.fail .unnamedDoctype lexer.offset
    else lexer.finish .other
  else lexer.fail .openDoctype lexer.start

/-- Instructions end with `?>`; the opening `?` is not the closing one. -/
def finishInstruction (lexer : Lexer) : Lexer :=
  if lexer.raw.length > 1 then lexer.finish .other
  else lexer.fail .openInstruction lexer.start

def advance (lexer : Lexer) (c : Char) : Lexer :=
  match lexer.mode with
  | .text => if c = '<' then lexer.beginMarkup else lexer.keep c .text
  | .markup =>
    if c = '!' then lexer.keep c .declaration
    else if c = '?' then lexer.keep c .instruction
    else lexer.stepTag none c
  | .tag quote => lexer.stepTag quote c
  | .declaration =>
    if c = '-' then lexer.keep c .comment
    else if c = '[' then lexer.keep c .cdata
    else if c = 'D' || c = 'd' then lexer.keep c (.doctype 0)
    else lexer.fail .unknownMarkup lexer.start
  | .comment =>
    if c = '>' && lexer.raw.length > 4 && lexer.raw.take 2 == ['-', '-'] then lexer.finishComment
    else lexer.keep c .comment
  | .cdata =>
    if c = '>' && lexer.raw.take 2 == [']', ']'] then lexer.finishCdata else lexer.keep c .cdata
  | .doctype depth =>
    if c = '>' then
      if depth = 0 then lexer.finishDoctype else lexer.keep c (.doctype (depth - 1))
    else if c = '<' then lexer.keep c (.doctype (depth + 1))
    else lexer.keep c (.doctype depth)
  | .instruction =>
    if c = '>' && lexer.raw.take 1 == ['?'] then lexer.finishInstruction
    else lexer.keep c .instruction

/-- Reads one character. After a fault the rest of the text is not looked at. -/
def step (lexer : Lexer) (c : Char) : Lexer :=
  match lexer.fault with
  | some _ => lexer
  | none => lexer.advance c

/-- Ends the text. Character data may end here; markup may not. -/
def complete (lexer : Lexer) : Lexer :=
  match lexer.fault with
  | some _ => lexer
  | none =>
    match lexer.mode with
    | .text =>
      if lexer.raw.isEmpty then lexer
      else { lexer with
        raw := [], start := lexer.offset
        finished := ⟨.text lexer.raw.reverse, lexer.start, lexer.offset⟩ :: lexer.finished }
    | .markup | .tag _ => lexer.fail .openTag lexer.start
    | .declaration => lexer.fail .unknownMarkup lexer.start
    | .comment => lexer.fail .openComment lexer.start
    | .cdata => lexer.fail .openCdata lexer.start
    | .doctype _ => lexer.fail .openDoctype lexer.start
    | .instruction => lexer.fail .openInstruction lexer.start

end Lexer

/-- The tokens of a text, and the fault that ended the reading with its offset. -/
structure Lexemes where
  lexemes : List Lexeme
  fault : Option (LexicalFault × Nat)
deriving DecidableEq, Repr

def Lexemes.ofText (text : List Char) : Lexemes :=
  let lexer := (text.foldl Lexer.step Lexer.initial).complete
  ⟨lexer.finished.reverse, lexer.fault⟩

end KeyholeMarkup.Xml

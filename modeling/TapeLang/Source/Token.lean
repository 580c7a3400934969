import TapeLang.Source.Position
import TapeLang.Text.Alphanumeric
import TapeLang.Text.Blank

/-!
Tokens. The instruction characters are tokens wherever they stand; a bar takes the digits that
follow it at once as a number; `debug` and `io` are keywords when they stand as whole words. The
word after `io` becomes a token of its own, so that the parser can judge it, unless an instruction
or another sign comes first. All other text is comment.

The scanner reads one character at a time. What it knows between two characters is the run that the
last one belongs to, whether an `io` still waits for its word, and the position, so inserting text
at a boundary can be followed by comparing the states before and after it.
-/
namespace TapeLang.Source

inductive TokenKind where
  | plus
  | minus
  | dot
  | comma
  | moveRight
  | moveLeft
  | loopOpen
  | loopClose
  | star
  | bar
  | number
  | debug
  | io
  | word
deriving DecidableEq, Repr

/-- The name of a kind of token in error messages. -/
def TokenKind.name : TokenKind → String
  | .plus => "plus"
  | .minus => "minus"
  | .dot => "dot"
  | .comma => "comma"
  | .moveRight => "move_right"
  | .moveLeft => "move_left"
  | .loopOpen => "loop_open"
  | .loopClose => "loop_close"
  | .star => "star"
  | .bar => "bar"
  | .number => "number"
  | .debug => "debug"
  | .io => "io"
  | .word => "word"

/-- A piece of source text that means something, with the characters it is made of. -/
structure Token where
  kind : TokenKind
  lexeme : List Char
  position : Position
deriving DecidableEq, Repr

/-! ## Characters -/

/-- The kind of an instruction character. The bar is not among them: it opens a number. -/
def instruction? : Char → Option TokenKind
  | '+' => some .plus
  | '-' => some .minus
  | '.' => some .dot
  | ',' => some .comma
  | '>' => some .moveRight
  | '<' => some .moveLeft
  | '[' => some .loopOpen
  | ']' => some .loopClose
  | '*' => some .star
  | _ => none

/-- Whether a character belongs to words. -/
def isWordChar (c : Char) : Bool := Text.isAlphanumeric c.toNat || c == '_'

/-- Whether a character belongs to the number after a bar. -/
def isDigitChar (c : Char) : Bool := Text.isDigit c.toNat

/-- Whether a character is white space. -/
def isBlankChar (c : Char) : Bool := Text.isBlank c.toNat

/-- A digit also belongs to words. -/
theorem isWordChar_of_isDigitChar {c : Char} (digit : isDigitChar c = true) :
    isWordChar c = true := by
  simp only [isDigitChar] at digit
  simp [isWordChar, Text.isAlphanumeric_of_isDigit digit]

/-! ## The scanner -/

/-- The run of text that the last character belongs to. A `tail` is the rest of a run of word
characters whose beginning was a number, and so no word. -/
inductive Run where
  | gap
  | number (start : Position) (read : List Char)
  | word (start : Position) (read : List Char)
  | tail
deriving DecidableEq, Repr

/-- What the scanner knows between two characters. Characters and tokens are kept newest first. -/
structure Scanner where
  position : Position
  run : Run
  /-- an `io` still waits for its word -/
  expecting : Bool
  tokens : List Token
deriving DecidableEq, Repr

namespace Scanner

/-- The state before the first character. -/
def start : Scanner := ⟨.origin, .gap, false, []⟩

/-- Adds a token. -/
def emit (s : Scanner) (kind : TokenKind) (lexeme : List Char) (position : Position) : Scanner :=
  { s with tokens := ⟨kind, lexeme, position⟩ :: s.tokens }

/-- Closes a word: a target after `io`, a keyword, or comment. -/
def closeWord (s : Scanner) (position : Position) (word : List Char) : Scanner :=
  if s.expecting then { s.emit .word word position with expecting := false }
  else if word = ['d', 'e', 'b', 'u', 'g'] then s.emit .debug word position
  else if word = ['i', 'o'] then { s.emit .io word position with expecting := true }
  else s

/-- Closes the current run, before a character that does not belong to it. -/
def closeRun (s : Scanner) : Scanner :=
  match s.run with
  | .gap | .tail => s
  | .number position read => if read = [] then s else s.emit .number read.reverse position
  | .word position read => s.closeWord position read.reverse

/-- Reads a character that belongs to neither a word nor a number that was begun. -/
def enter (s : Scanner) (c : Char) : Scanner :=
  match instruction? c with
  | some kind =>
    { s.emit kind [c] s.position with expecting := false, run := .gap }
  | none =>
    if c = '|' then
      { s.emit .bar [c] s.position with run := .number (s.position.advance c) [] }
    else if isWordChar c then { s with run := .word s.position [c] }
    else { s with run := .gap, expecting := s.expecting && isBlankChar c }

/-- What a character means after the current run, its position aside. -/
def read (s : Scanner) (c : Char) : Scanner :=
  match s.run with
  | .gap => s.enter c
  | .number position read =>
    if isDigitChar c then { s with run := .number position (c :: read) }
    else if read = [] then s.enter c
    else if isWordChar c then { s.closeRun with run := .tail, expecting := false }
    else s.closeRun.enter c
  | .word position read =>
    if isWordChar c then { s with run := .word position (c :: read) }
    else s.closeRun.enter c
  | .tail => if isWordChar c then s else s.enter c

/-- Reads a character. -/
def step (s : Scanner) (c : Char) : Scanner :=
  { s.read c with position := s.position.advance c }

/-- The tokens read, in the order of the text. -/
def finish (s : Scanner) : List Token := s.closeRun.tokens.reverse

end Scanner

/-- The tokens of a source text. -/
def tokenize (source : List Char) : List Token :=
  (source.foldl Scanner.step Scanner.start).finish

end TapeLang.Source

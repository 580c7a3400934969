import TapeLang.Text.Basic

/-!
The words of a command line. Words stand between spaces, tabs and line breaks. Quotes keep together what
is between them and may hold nothing at all; a backslash takes the meaning from the character after it.
Between single quotes a backslash is a character like any other, and between double quotes it is one
unless a double quote or a backslash comes after it. A line that ends inside quotes, or after a backslash
that is not one of its characters, has no words.
-/
namespace TapeLang.Text.Words

/-- Why a line has no words. -/
inductive Fault where
  | openQuote
  | openEscape
deriving DecidableEq, Repr

def Fault.message : Fault → String
  | .openQuote => "No closing quotation"
  | .openEscape => "No escaped character"

inductive Quote where
  | single
  | double
deriving DecidableEq, Repr

def Quote.point : Quote → Nat
  | .single => 0x27
  | .double => 0x22

/-- The quote that a character opens. -/
def Quote.ofPoint? (n : Nat) : Option Quote :=
  if n = 0x27 then some .single else if n = 0x22 then some .double else none

/-- The character that takes the meaning from the next one. -/
def escape : Nat := 0x5C

/-- Whether a character stands between words. -/
def isSeparator (n : Nat) : Bool := n == 0x20 || n == 0x9 || n == 0xD || n == 0xA

/-- What the characters read so far have begun. Words are kept newest character first. -/
inductive State where
  | gap
  | word (read : Text)
  | quoted (quote : Quote) (read : Text)
  /-- after a backslash, in double quotes or outside of quotes -/
  | escaped (inQuotes : Bool) (read : Text)
deriving DecidableEq, Repr

structure Splitter where
  state : State := .gap
  /-- the complete words, newest first -/
  words : List Text := []
deriving DecidableEq, Repr

namespace Splitter

/-- Reads a character outside of quotes that stands between no words. -/
def extend (s : Splitter) (read : Text) (n : Nat) : Splitter :=
  match Quote.ofPoint? n with
  | some quote => { s with state := .quoted quote read }
  | none =>
    if n = escape then { s with state := .escaped false read }
    else { s with state := .word (n :: read) }

/-- Reads a character. -/
def read (s : Splitter) (n : Nat) : Splitter :=
  match s.state with
  | .gap => if isSeparator n then s else s.extend [] n
  | .word read =>
    if isSeparator n then { state := .gap, words := read.reverse :: s.words } else s.extend read n
  | .quoted quote read =>
    if n = quote.point then { s with state := .word read }
    else if n = escape ∧ quote = .double then { s with state := .escaped true read }
    else { s with state := .quoted quote (n :: read) }
  | .escaped false read => { s with state := .word (n :: read) }
  | .escaped true read =>
    let kept := if n = escape ∨ n = Quote.double.point then read else escape :: read
    { s with state := .quoted .double (n :: kept) }

/-- The words of the line that ends here. -/
def finish (s : Splitter) : Except Fault (List Text) :=
  match s.state with
  | .gap => .ok s.words.reverse
  | .word read => .ok (read.reverse :: s.words).reverse
  | .quoted .. => .error .openQuote
  | .escaped .. => .error .openEscape

end Splitter

/-- Whether the next character loses its meaning. -/
def Splitter.isEscaped (s : Splitter) : Bool :=
  match s.state with
  | .escaped .. => true
  | _ => false

/-- What has been read of a line. -/
def scan (line : Text) : Splitter := line.foldl Splitter.read {}

/-- The words of a line. -/
def split (line : Text) : Except Fault (List Text) := (scan line).finish

example : split (.ofString "assign 1 \"2\\\" \\x\" '' a\\ b") =
    .ok [.ofString "assign", .ofString "1", .ofString "2\" \\x", [], .ofString "a b"] := by rfl

end TapeLang.Text.Words

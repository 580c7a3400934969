import TapeLang.Source.Block
import TapeLang.Source.Token
import TapeLang.Text.Numeral

/-!
Reading programs from tokens. The parser goes through the tokens once, with the loops that are open
on a stack. A program is refused at its first violation; of the two that the end of a block can
hold, a `debug` without a statement after it comes before an unbalanced bracket.
-/
namespace TapeLang.Source

/-- How a token list violates the grammar. -/
inductive SyntaxFault where
  | strayClose
  | danglingMark
  | numberAtEnd
  | numberMissing (found : TokenKind)
  | loopUnclosed
  | targetMissing
  | targetUnknown (name : String)
  | unexpected (found : TokenKind)
deriving DecidableEq, Repr

def SyntaxFault.message : SyntaxFault → String
  | .strayClose => "unexpected loop close"
  | .danglingMark => "debug marker must precede a statement"
  | .numberAtEnd => "unexpected end of file, expected number"
  | .numberMissing found => s!"unexpected {found.name} token, expected number"
  | .loopUnclosed => "unexpected end of file, loop is unclosed"
  | .targetMissing => "expected io target after 'io'"
  | .targetUnknown name => s!"unknown io target '{name}'"
  | .unexpected found => s!"unexpected {found.name} token"

/-- Why a text is no program. A number may hold digits that have no positional value, or more
digits than a literal may have; that is no violation of the grammar and has no position. -/
inductive ParseError where
  | malformed (fault : SyntaxFault) (position : Position)
  | numeral (fault : Text.Numeral.Fault)
deriving DecidableEq, Repr

/-- A loop whose body is being read, with the statements before it in its block, newest first. -/
structure OpenLoop where
  head : Header
  before : List Statement
deriving DecidableEq, Repr

/-- The action of a token that is a statement of its own. -/
def TokenKind.action? : TokenKind → Option Action
  | .plus => some .increment
  | .minus => some .decrement
  | .dot => some .output
  | .comma => some .input
  | .moveRight => some .moveRight
  | .moveLeft => some .moveLeft
  | .star => some .clear
  | _ => none

/-- The value that the number after a bar stands for. -/
def pushValue (lexeme : List Char) : Except Text.Numeral.Fault Int :=
  (Text.Numeral.read (lexeme.map Char.toNat)).map (· % 256)

/-- Reads the rest of a program. `opened` holds the open loops, innermost first, `done` the
statements of the current block, newest first, and `mark` the position of the last `debug` that
still waits for its statement. -/
def parseFrom (opened : List OpenLoop) (done : List Statement) (mark : Option Position) :
    List Token → Except ParseError Block
  | [] =>
    match mark, opened with
    | some position, _ => .error (.malformed .danglingMark position)
    | none, [] => .ok (.ofReversed done)
    | none, loop :: _ => .error (.malformed .loopUnclosed loop.head.position)
  | token :: rest =>
    let head : Header := ⟨token.position, mark.isSome⟩
    match token.kind with
    | .debug => parseFrom opened done (some token.position) rest
    | .loopClose =>
      match mark, opened with
      | some position, _ => .error (.malformed .danglingMark position)
      | none, [] => .error (.malformed .strayClose token.position)
      | none, loop :: outer =>
        parseFrom outer (.loop loop.head (.ofReversed done) :: loop.before) none rest
    | .loopOpen => parseFrom (⟨head, done⟩ :: opened) [] none rest
    | .bar =>
      match rest with
      | [] => .error (.malformed .numberAtEnd token.position)
      | number :: rest =>
        if number.kind = .number then
          match pushValue number.lexeme with
          | .ok value => parseFrom opened (.act head (.push value) :: done) none rest
          | .error fault => .error (.numeral fault)
        else .error (.malformed (.numberMissing number.kind) token.position)
    | .io =>
      match rest with
      | [] => .error (.malformed .targetMissing token.position)
      | word :: rest =>
        let name := String.ofList word.lexeme
        if word.kind = .word then
          match Target.ofName? name with
          | some target => parseFrom opened (.act head (.switch target.name) :: done) none rest
          | none => .error (.malformed (.targetUnknown name) word.position)
        else .error (.malformed .targetMissing token.position)
    | kind =>
      match kind.action? with
      | some action => parseFrom opened (.act head action :: done) none rest
      | none => .error (.malformed (.unexpected kind) token.position)

/-- The program that a token list spells. -/
def Block.ofTokens (tokens : List Token) : Except ParseError Block := parseFrom [] [] none tokens

/-- The program that a source text spells. -/
def Block.parse (source : List Char) : Except ParseError Block :=
  ofTokens (tokenize source)

end TapeLang.Source

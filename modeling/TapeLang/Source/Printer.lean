import TapeLang.Source.Block

/-!
Writing programs. A program is written as the words of its statements with single blanks between them:
the sign of an instruction, a bar with its number, `io` and the name of a target, and a loop as its body
between brackets; `debug` comes before a statement that it marks.
-/
namespace TapeLang.Source

/-- The words that an action is written with. An action without a meaning has none. -/
def Action.words : Action → List (List Char)
  | .increment => [['+']]
  | .decrement => [['-']]
  | .moveRight => [['>']]
  | .moveLeft => [['<']]
  | .clear => [['*']]
  | .output => [['.']]
  | .input => [[',']]
  | .push value => ['|' :: (toString value).toList]
  | .switch target => [['i', 'o'], target.toList]
  | .none => []

/-- The word in front of a marked statement. -/
def Header.words (head : Header) : List (List Char) :=
  if head.marked then [['d', 'e', 'b', 'u', 'g']] else []

/-- Whether an action can be written: it has a meaning, the number it pushes fits into a cell, and its
target is one of the four. -/
def Action.IsExpressible : Action → Prop
  | .push value => 0 ≤ value ∧ value < 256
  | .switch target => (Target.ofName? target).isSome
  | .none => False
  | _ => True

namespace Block

/-- The words that a program is written with. -/
def words : Block → List (List Char)
  | .nil => []
  | .act head action next => head.words ++ (action.words ++ next.words)
  | .loop head body next => head.words ++ (['['] :: body.words ++ [']'] :: next.words)

/-- The text of a program. -/
def render (program : Block) : List Char := [' '].intercalate program.words

/-- Whether every action of a program can be written. -/
def IsExpressible : Block → Prop
  | .nil => True
  | .act _ action next => action.IsExpressible ∧ next.IsExpressible
  | .loop _ body next => body.IsExpressible ∧ next.IsExpressible

/-- A program without its positions. -/
def unplaced : Block → Block
  | .nil => .nil
  | .act head action next => .act { head with position := {} } action next.unplaced
  | .loop head body next => .loop { head with position := {} } body.unplaced next.unplaced

end Block
end TapeLang.Source

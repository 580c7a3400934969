import TapeLang.Machine.State

/-!
Snapshots of a paused machine: the statement it stands before, as an object, its position, the
cursor, and the cells at the front of the tape.
-/
namespace TapeLang

open Source (Block Header Position Statement)

/-- A position as an object. -/
def Source.Position.fields (p : Position) : Json.Fields :=
  [(.ofString "line", .int p.line), (.ofString "column", .int p.column)]

/-- A statement as an object, with what is particular to its kind at the end. -/
def Source.Statement.fields (s : Statement) : Json.Fields :=
  [(.ofString "type", .ofString s.name), (.ofString "position", .object s.head.position.fields),
    (.ofString "marked", .bool s.head.marked)] ++
  match s with
  | .act _ (.push value) => [(.ofString "value", .int value)]
  | .act _ (.switch target) => [(.ofString "target", .ofString target)]
  | .act _ _ => []
  | .loop _ body => [(.ofString "body", .int body.length)]

namespace Machine

/-- The snapshot of a machine before a statement. -/
def snapshot (m : Machine) (s : Statement) : Debug.Snapshot :=
  { statement := s.fields
    position := s.head.position.fields
    cursor := m.tape.cursor
    tape := (m.tape.window Tape.windowSize).map fun cell => (cell.toNat : Int) }

end Machine
end TapeLang

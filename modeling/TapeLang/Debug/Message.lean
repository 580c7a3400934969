import TapeLang.Json.Value
import TapeLang.Text.Encoding

/-!
Messages between a debugged program and its client. The program tells what it runs, where it stands
whenever it pauses, what it writes, and the code it ends with; the client sends commands. Program
output travels as a text with one code point for each byte, so every byte survives.
-/
namespace TapeLang.Debug

/-- The state of a paused program: the statement it stands before and its position, the cursor, and
the cells at the front of the tape. -/
structure Snapshot where
  statement : Json.Fields
  position : Json.Fields
  cursor : Int
  tape : List Int

namespace Snapshot

/-- The value under the cursor, if the snapshot shows that cell. -/
def current? (s : Snapshot) : Option Int :=
  if 0 ≤ s.cursor then s.tape[s.cursor.toNat]? else none

end Snapshot

/-- The names of the output streams. -/
def stdOut : Text := .ofString "std-out"
def stdErr : Text := .ofString "std-err"

/-- What a program tells its client. -/
inductive ServerMessage where
  | metadata (fileName filePath content : Text)
  | state (snapshot : Snapshot)
  | exit (code : Int)
  | stream (name : Text) (value : Text)

namespace ServerMessage

/-- Output of a stream. -/
def ofBytes (bytes : List UInt8) (name : Text) : ServerMessage := .stream name (.ofLatin1 bytes)

/-- The name of a kind of message. -/
def type : ServerMessage → Text
  | .metadata .. => .ofString "metadata"
  | .state _ => .ofString "debug-state"
  | .exit _ => .ofString "exit"
  | .stream name _ => name

/-- The fields of a message, in the order in which they are sent. -/
def fields (m : ServerMessage) : Json.Fields :=
  let content : Json.Fields := match m with
    | .metadata fileName filePath content =>
      [(.ofString "file_name", Json.text fileName), (.ofString "file_path", Json.text filePath),
        (.ofString "content", Json.text content)]
    | .state s =>
      [(.ofString "statement", Json.object s.statement),
        (.ofString "position", Json.object s.position), (.ofString "cursor", Json.int s.cursor),
        (.ofString "tape", Json.array (s.tape.map Json.int))]
    | .exit code => [(.ofString "code", Json.int code)]
    | .stream _ value => [(.ofString "value", Json.text value)]
  content ++ [(.ofString "type", Json.text m.type)]

end ServerMessage

/-- What a client asks for: an operation, and the cell and value that some operations need. -/
structure Command where
  operation : Text
  cell : Option Int := none
  value : Option Int := none
deriving DecidableEq, Repr

namespace Command

/-- The fields of a command, in the order in which they are sent. -/
def fields (c : Command) : Json.Fields :=
  [(Text.ofString "operation", Json.text c.operation)] ++
    (c.cell.toList.map fun n => (Text.ofString "cell", Json.int n)) ++
    (c.value.toList.map fun n => (Text.ofString "value", Json.int n))

end Command

/-- The operations a paused program acts on. -/
inductive Operation where
  | step
  | stepOver
  | stepOut
  | resume
  | move
  | assign
deriving DecidableEq, Repr

namespace Operation

def name : Operation → String
  | .step => "step"
  | .stepOver => "step-over"
  | .stepOut => "step-out"
  | .resume => "resume"
  | .move => "move"
  | .assign => "assign"

/-- The operation of a name. -/
def ofName? (name : Text) : Option Operation :=
  [Operation.step, .stepOver, .stepOut, .resume, .move, .assign].find? fun o =>
    Text.ofString o.name == name

end Operation

end TapeLang.Debug

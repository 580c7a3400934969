import TapeLang.Client.Transport

/-!
What a debugger knows of the program. Messages are taken one by one until one tells of a halt: the
program paused, or it came to its end.
-/
namespace TapeLang.Client

open Debug (ServerMessage Snapshot)

/-- How the program has come to a halt. -/
inductive Halt where
  | paused (snapshot : Snapshot)
  | exited (code : Int)

namespace Halt

/-- The halt that a message tells of. -/
def ofMessage? : ServerMessage → Option Halt
  | .state snapshot => some (.paused snapshot)
  | .exit code => some (.exited code)
  | _ => none

end Halt

structure Context where
  /-- there once the first command has connected -/
  transport : Option Transport := none
  /-- file name, path and text of the program -/
  metadata : Option (Text × Text × Text) := none
  lastState : Option Snapshot := none
  exitCode : Option Int := none
  /-- streams and texts of the output that has not been shown -/
  output : List (Text × Text) := []

/-- What waiting for a halt comes to. -/
inductive Awaited where
  | halt (halt : Halt)
  /-- the connection has ended -/
  | gone
  /-- no halt has been told of yet -/
  | waiting

namespace Context

/-- Takes note of a message. -/
def note (c : Context) : ServerMessage → Context
  | .metadata fileName filePath content =>
    { c with metadata := some (fileName, filePath, content) }
  | .stream name value => { c with output := c.output ++ [(name, value)] }
  | .state snapshot => { c with lastState := some snapshot }
  | .exit code => { c with exitCode := some code, lastState := none }

/-- Takes the next message. -/
def await (c : Context) : Context × Awaited :=
  match c.transport with
  | none => (c, .waiting)
  | some transport =>
    match transport.queue with
    | message :: rest =>
      ({ c with transport := some { transport with queue := rest } }.note message,
        match Halt.ofMessage? message with
        | some halt => .halt halt
        | none => .waiting)
    | [] => (c, if transport.reading = .ended then .gone else .waiting)

/-- All output, to be shown once. -/
def takeOutput (c : Context) : List (Text × Text) × Context := (c.output, { c with output := [] })

end Context
end TapeLang.Client

import TapeLang.Client.Context
import TapeLang.Tape

/-!
The commands of a debugger that let the program go on. What is out of range is refused before anything
is sent. The first command connects and waits for a halt of the program; every command is sent while
the program is paused, and then waits for the next halt.
-/
namespace TapeLang.Client

open Debug (Command Operation Snapshot)

inductive Control where
  | step
  | next
  | out
  | resume
  | move (cell : Int)
  | assign (cell value : Int)
deriving DecidableEq, Repr

namespace Control

def operation : Control → Operation
  | .step => .step
  | .next => .stepOver
  | .out => .stepOut
  | .resume => .resume
  | .move _ => .move
  | .assign .. => .assign

/-- What is sent. -/
def command (control : Control) : Command :=
  { operation := .ofString control.operation.name
    cell := match control with
      | .move cell | .assign cell _ => some cell
      | _ => none
    value := match control with
      | .assign _ value => some value
      | _ => none }

def cellProblem? (cell : Int) : Option String :=
  if 0 ≤ cell ∧ cell < Tape.standardSize then none
  else some s!"cell {cell} outside tape (0..{Tape.standardSize - 1})"

def valueProblem? (value : Int) : Option String :=
  if 0 ≤ value ∧ value ≤ 255 then none else some s!"value {value} outside 0..255"

/-- Why a command is not sent. -/
def problem? : Control → Option String
  | .move cell => cellProblem? cell
  | .assign cell value => (cellProblem? cell).or (valueProblem? value)
  | _ => none

end Control

/-- What a command comes to. -/
inductive Reply where
  | paused (snapshot : Snapshot)
  | exited (code : Int)
  | disconnected
  | refused (problem : String)
  | failed (operation : Operation) (reason : String)

namespace Reply

def ofHalt : Halt → Reply
  | .paused snapshot => .paused snapshot
  | .exited code => .exited code

/-- The code that a command returns. -/
def status : Reply → Int
  | .paused _ | .exited _ => 0
  | .disconnected | .refused _ => 1
  | .failed .. => 2

/-- What is reported of a command that went wrong. -/
def error? : Reply → Option String
  | .paused _ | .exited _ => none
  | .disconnected => some "interpreter disconnected"
  | .refused problem => some problem
  | .failed operation reason => some s!"{operation.name} failed: {reason}"

end Reply

inductive Activity where
  | idle
  /-- waiting for the first halt, to send a command then -/
  | connecting (control : Control)
  /-- waiting for the halt after a command -/
  | waiting (control : Control)
deriving DecidableEq, Repr

end TapeLang.Client

namespace TapeLang

open Client (Context Activity Reply Control Halt)

/-- A debugger. -/
structure Client where
  context : Context := {}
  activity : Activity := .idle
  /-- what the last command came to -/
  reply : Option Reply := none
  /-- all bytes sent -/
  sent : List UInt8 := []

namespace Client

/-- A command that came to nothing. -/
def fail (c : Client) (control : Control) (reason : String) : Client :=
  { c with activity := .idle, reply := some (.failed control.operation reason) }

/-- Sends a command. -/
def send (c : Client) (control : Control) : Client :=
  match c.context.exitCode with
  | some code => c.fail control s!"program already exited with code {code}"
  | none =>
    match c.context.transport with
    | some transport =>
      if transport.connected then
        { c with activity := .waiting control, sent := c.sent ++ control.command.encode }
      else c.fail control "not connected"
    | none => c.fail control "not connected"

/-- A command that was answered. All output is shown. -/
def answered (c : Client) (reply : Reply) : Client :=
  { c with context := c.context.takeOutput.2, activity := .idle, reply := some reply }

/-- Undertakes a command. -/
def undertake (c : Client) (control : Control) : Client :=
  match control.problem? with
  | some problem => { c with reply := some (.refused problem) }
  | none =>
    match c.context.transport with
    | some _ => c.send control
    | none =>
      { c with context := { c.context with transport := some {} }, activity := .connecting control }

/-- Takes the next message, if a command waits for one. -/
def take (c : Client) : Client :=
  let (context, awaited) := c.context.await
  match c.activity with
  | .idle => c
  | .connecting control =>
    match awaited with
    | .waiting => { c with context }
    | .gone | .halt _ => { c with context }.send control
  | .waiting _ =>
    match awaited with
    | .waiting => { c with context }
    | .gone => { c with context }.answered .disconnected
    | .halt halt => { c with context }.answered (.ofHalt halt)

end Client
end TapeLang

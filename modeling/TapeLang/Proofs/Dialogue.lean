import TapeLang.Client.Control
import TapeLang.Launch

/-!
A debugger and the run of a program file, joined by a connection that loses nothing and keeps the order.
Every byte that one side has written is on its way until it arrives, and the two sides and the bytes
take their steps in any order.

What the run tells of its halts and which commands it hears is recorded in a log, in the order in which
it happens: a step of the run hears before it tells. Nothing reads the log; it is there to say what has
happened.
-/
namespace TapeLang

open Client (Control Halt)
open Debug (Command ServerMessage Session)

inductive Dialogue.Event where
  | told (halt : Halt)
  | heard (command : Command)

namespace Dialogue.Event

def halt? : Event → Option Halt
  | .told halt => some halt
  | .heard _ => none

def command? : Event → Option Command
  | .told _ => none
  | .heard command => some command

/-- What one step hears, and then tells. -/
def record (commands : List Command) (halts : List Halt) : List Event :=
  commands.map .heard ++ halts.map .told

end Dialogue.Event

open Dialogue (Event)

/-- The halts that a session has told of since an earlier state of it. -/
def Debug.Session.haltsSince (now before : Session) : List Halt :=
  (now.writer.chunks.take (now.writer.chunks.length - before.writer.chunks.length)).reverse.filterMap
    fun chunk => (ServerMessage.decode chunk).toOption.bind Halt.ofMessage?

/-- The commands that a session has heard since an earlier state of it. -/
def Debug.Session.commandsSince (now before : Session) : List Command :=
  (before.reader.pending.take
    (before.reader.pending.length - now.reader.pending.length)).filterMap fun line =>
      (Command.decode line).toOption

namespace Launch

/-- The session of a run, blank before the client has connected. -/
def session (launch : Launch) : Session := launch.world.session.getD {}

/-- What has happened since an earlier state of a run. -/
def eventsSince (now before : Launch) : List Event :=
  Event.record (now.session.commandsSince before.session) (now.session.haltsSince before.session)

/-- A line arrives at a run. -/
def arrive (line : Host.Line) : Launch → Launch
  | .running m =>
    .running { m with world := { m.world with
      session := m.world.session.map fun s => { s with reader := s.reader.arrive line } } }
  | launch => launch

/-- The next step of a run. It accepts the client that connects, and then runs. -/
def serve (path : String) (connected : Bool) : Launch → Launch
  | .accepting w content =>
    if connected then accept path (.accepting w content) else .accepting w content
  | launch => step path launch

/-- Whether nothing happens until a command arrives, or nothing at all any more. -/
def blocked : Launch → Bool
  | .accepting .. => false
  | .running m => m.awaitsCommand
  | .finished .. => true

end Launch

/-- Whether a command waits for a message that has not arrived. -/
def Client.blocked (c : Client) : Bool :=
  c.activity != .idle && c.context.transport.all (·.queue.isEmpty)

structure Dialogue where
  server : Launch
  client : Client := {}
  /-- how many bytes have reached the client -/
  delivered : Nat := 0
  /-- how many bytes have reached the server -/
  arrived : Nat := 0
  /-- the line that has begun to arrive at the server -/
  begun : Host.Line := []
  log : List Event := []

/-- Who takes a step. -/
inductive Move where
  | serve
  /-- a byte reaches the client -/
  | deliver
  /-- a byte reaches the server -/
  | arrive
  /-- the client sees that the server has closed the connection -/
  | close
  /-- the client begins a command, if it is not at work on one -/
  | undertake (control : Control)
  /-- the client takes the next message -/
  | take
deriving DecidableEq, Repr

namespace Dialogue

/-- The bytes on the way to the client. -/
def toClient (d : Dialogue) : List UInt8 := d.server.session.writer.bytes.drop d.delivered

/-- The bytes on the way to the server. -/
def toServer (d : Dialogue) : List UInt8 := d.client.sent.drop d.arrived

/-- The next step of the server. -/
def serve (d : Dialogue) (path : String) : Dialogue :=
  let server := d.server.serve path d.client.context.transport.isSome
  { d with server, log := d.log ++ server.eventsSince d.server }

/-- Changes the client's end of the connection. -/
def setTransport (d : Dialogue) (transport : Client.Transport) : Dialogue :=
  { d with client := { d.client with
      context := { d.client.context with transport := some transport } } }

/-- The next byte reaches the client. -/
def deliver (d : Dialogue) : Dialogue :=
  match d.toClient, d.client.context.transport with
  | byte :: _, some transport =>
    { d.setTransport (transport.receive byte) with delivered := d.delivered + 1 }
  | _, _ => d

/-- The next byte reaches the server. -/
def arrive (d : Dialogue) : Dialogue :=
  match d.toServer, d.server with
  | byte :: _, .running m =>
    let arrived := d.arrived + 1
    let begun := d.begun ++ [byte]
    if byte = 0xA then
      { d with arrived, begun := [], server := Launch.arrive begun (.running m) }
    else { d with arrived, begun }
  | _, _ => d

/-- The client sees the end of the connection, after everything that was sent. -/
def close (d : Dialogue) : Dialogue :=
  match d.server, d.toClient, d.client.context.transport with
  | .finished .., [], some transport => d.setTransport transport.finish
  | _, _, _ => d

def step (path : String) (d : Dialogue) : Move → Dialogue
  | .serve => d.serve path
  | .deliver => d.deliver
  | .arrive => d.arrive
  | .close => d.close
  | .undertake control =>
    if d.client.activity = .idle then { d with client := d.client.undertake control } else d
  | .take => { d with client := d.client.take }

/-- The steps of a list, one after the other. -/
def run (path : String) (d : Dialogue) (moves : List Move) : Dialogue := moves.foldl (step path) d

/-- What a run and a client get to in any order of their steps. -/
inductive Reachable (path : String) (server : Launch) : Dialogue → Prop where
  | initial : Reachable path server { server }
  | step {d : Dialogue} (reachable : Reachable path server d) (move : Move) :
      Reachable path server (d.step path move)

theorem Reachable.run {path : String} {server : Launch} {d : Dialogue}
    (reachable : Reachable path server d) (moves : List Move) :
    Reachable path server (d.run path moves) := by
  induction moves generalizing d with
  | nil => exact reachable
  | cons move moves ih => exact ih (reachable.step move)

end Dialogue
end TapeLang

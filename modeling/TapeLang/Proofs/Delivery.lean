import TapeLang.Http.Response
import TapeLang.Tape
import TapeLang.World

/-!
A world that operations are called on while clients connect, in any order. Each operation goes
through before the next begins. One that waits for a connection and finds none is still waiting, and
goes on where it is called again. A client's connection is concluded by the end of a cycle that began
once it was attached, or by whatever closes its listener.
-/
namespace TapeLang.Delivery

/-- What happens to a world: an operation is called, or a client connects. -/
inductive Event where
  | awaitConnection
  | broadcast (value : Int)
  | read
  | finishCycle
  | switch (name : String)
  | close
  | connect (body : List UInt8)
deriving DecidableEq, Repr

/-- What becomes of a world, whether or not the operation succeeds. -/
def happen (w : World) : Event → Except WaitFault World
  | .awaitConnection => w.awaitConnection.map (·.1)
  | .broadcast value => .ok (w.broadcast (Tape.byte value)).1
  | .read => .ok w.read.1
  | .finishCycle => w.finishCycle
  | .switch name => .ok (w.switch name).1
  | .close => .ok w.close.1
  | .connect body => w.connect body

/-- What becomes of a world when events happen one after the other. -/
def run (w : World) (events : List Event) : Except WaitFault World := events.foldlM happen w

namespace Event

/-- The byte that an event sends. -/
def byte? : Event → Option UInt8
  | .broadcast value => some (Tape.byte value)
  | _ => none

/-- Whether an event attaches the connections that wait in the inbox. -/
def attaches : Event → Bool
  | .awaitConnection | .broadcast _ | .read => true
  | _ => false

/-- Whether an event concludes a connection, given what has happened since its client connected. -/
def concludes (since : List Event) : Event → Bool
  | .finishCycle => since.any attaches
  | .switch _ | .close => true
  | _ => false

end Event

/-- The bytes that were sent, in order. -/
def sent (events : List Event) : List UInt8 := events.filterMap Event.byte?

/-- Nothing has concluded a connection since its client connected. -/
def Unconcluded (since : List Event) : Prop :=
  ∀ before event after, since = before ++ event :: after → event.concludes before = false

end TapeLang.Delivery

import TapeLang.Http.Response
import TapeLang.Proofs.Outputs

/-!
A program that clients connect to one at a time. The machine takes its steps, and a client connects
where a listener is open and every client before it has its response. While a listener is open the
program stays on the network; the values it outputs there are kept beside the machine, with the
listener they were output on, and nothing reads them.
-/
namespace TapeLang.Framing

open Http (Connection)

structure Serving where
  machine : Machine
  /-- what was output while a listener was open, in order -/
  values : List (Nat × UInt8) := []

/-- Who acts. -/
inductive Turn where
  | step
  | connect (body : List UInt8)
deriving DecidableEq, Repr

namespace Serving

/-- What the next step outputs while a listener is open. -/
def said (s : Serving) : List (Nat × UInt8) :=
  match s.machine.world.listener, s.machine.output? with
  | some listener, some value => [(listener, value)]
  | _, _ => []

/-- One turn. A client that another one is before waits, and so does one that nobody listens to. -/
def turn (s : Serving) : Turn → Except WaitFault Serving
  | .step => .ok { machine := s.machine.step, values := s.values ++ s.said }
  | .connect body =>
    if s.machine.world.traffic.connections.all (·.reply.isSome) then do
      let world ← s.machine.world.connect body
      return { s with machine := { s.machine with world } }
    else .ok s

/-- Turns one after the other. -/
def run (s : Serving) (turns : List Turn) : Except WaitFault Serving := turns.foldlM turn s

end Serving

/-- The values that were output during the stay of a listener. -/
def spoken (listener : Nat) (values : List (Nat × UInt8)) : List UInt8 :=
  values.filterMap fun (other, value) => if other = listener then some value else none

/-- A sequence of values split at its zeros. -/
def segments (values : List UInt8) : List (List UInt8) := values.splitOn 0

/-- The bodies of the responses that the clients of a listener have got, in order. -/
def bodies (w : World) (listener : Nat) : List (List UInt8) :=
  (w.traffic.connections.toList.filter (·.listener = listener)).filterMap fun c =>
    (c.reply.bind Http.Reply.response?).map (·.body)

/-- What was written to the clients of a listener that have no response yet. -/
def pending (w : World) (listener : Nat) : List (List UInt8) :=
  ((w.traffic.connections.toList.filter (·.listener = listener)).filter (·.reply.isNone)).map
    (·.output.toList)

/-- What the clients of a listener get of the values that were output during its stay. -/
structure Stay (w : World) (listener : Nat) (values : List UInt8) : Prop where
  /-- every segment but the last was a response, and the last is being written to whoever waits -/
  opened : w.listener = some listener →
    pending w listener = [] ∧ bodies w listener ++ [[]] = segments values ∨
    ∃ output, pending w listener = [output] ∧ bodies w listener ++ [output] = segments values
  /-- nobody waits, and every segment was a response, but for a last one that was empty -/
  shut : w.listener ≠ some listener →
    pending w listener = [] ∧
      (bodies w listener = segments values ∨ bodies w listener ++ [[]] = segments values)
  /-- no response holds a zero -/
  zeroless : ∀ body ∈ bodies w listener, (0 : UInt8) ∉ body

/-- What the next step does when it outputs a value on the network. -/
structure Networked (m : Machine) (value : UInt8) : Prop where
  /-- it is output during the stay of a listener -/
  listening : ∃ listener, m.world.listener = some listener
  /-- nothing of it reaches the console, which may be the debug session's, or a file -/
  elsewhere : m.step.world.console = m.world.console ∧ m.step.world.session = m.world.session ∧
    m.step.world.files = m.world.files
  /-- a zero completes a connection -/
  completes : value = 0 → ∃ (id : Nat) (c d : Connection), m.world.traffic.connections[id]? = some c ∧
    m.step.world.traffic.connections[id]? = some d ∧ c.reply = none ∧
      (d.reply.bind Http.Reply.response?).map (·.body) = some c.output.toList

end TapeLang.Framing

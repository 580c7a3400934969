import TapeLang.Proofs.Offline

/-!
A machine without its debug session. Forgetting the session forgets where the program is to pause as
well, and a machine that is paused stands, without one, at a statement about to act. Where console
output is not forwarded, no operation on the world depends on the session, so whatever a statement or
the end of a block does is the same with and without it (`alone_act`, `alone_endBlock`).
-/
namespace TapeLang

open Source (Action Block Header Statement)

namespace World

variable {w : World}

/-- The world without the debug session. -/
def alone (w : World) : World := { w with session := none }

theorem alone_drain (w : World) : w.alone.drain = w.drain.alone := by
  have same : w.alone.listener = w.listener := rfl
  simp only [drain, same]
  cases w.listener <;> rfl

theorem alone_writeConsole (own : w.console.forwarded = false) (stream : Stream)
    (bytes : List UInt8) :
    w.alone.writeConsole stream bytes = (w.writeConsole stream bytes).map alone := by
  simp only [writeConsole, alone, own, Bool.false_eq_true, ↓reduceIte]
  cases stream with
  | out => cases w.console.out.write bytes <;> rfl
  | err => cases w.console.err.write bytes <;> rfl

theorem alone_writeByte (own : w.console.forwarded = false) (byte : UInt8) (endpoint : Endpoint) :
    w.alone.writeByte byte endpoint = (w.writeByte byte endpoint).map alone := by
  cases endpoint with
  | console => exact alone_writeConsole own .out [byte]
  | file | connection => rfl

theorem alone_writeEach (own : w.console.forwarded = false) (byte : UInt8)
    (endpoints : List Endpoint) :
    w.alone.writeEach byte endpoints =
      ((w.writeEach byte endpoints).1.alone, (w.writeEach byte endpoints).2) := by
  induction endpoints generalizing w with
  | nil => rfl
  | cons endpoint rest ih =>
    simp only [writeEach, alone_writeByte own]
    cases written : w.writeByte byte endpoint with
    | error error => rfl
    | ok v => exact ih ((keeps_writeByte written).forwarded.trans own)

theorem alone_broadcast (own : w.console.forwarded = false) (byte : UInt8) :
    w.alone.broadcast byte = ((w.broadcast byte).1.alone, (w.broadcast byte).2) := by
  simp only [broadcast, alone_drain]
  exact alone_writeEach ((keeps_drain w).forwarded.trans own) byte w.drain.endpoints

theorem alone_readConsole (w : World) :
    w.alone.readConsole = (w.readConsole).map fun got => (got.1, got.2.alone) := by
  unfold readConsole alone
  cases w.console.input.read <;> rfl

theorem alone_readLive (w : World) : w.alone.readLive = (w.readLive.1.alone, w.readLive.2) := by
  have same : w.alone.endpoints = w.endpoints := rfl
  simp only [readLive, same, alone_readConsole]
  cases w.endpoints.head? with
  | none => cases w.readConsole <;> rfl
  | some endpoint =>
    cases endpoint with
    | console => cases w.readConsole <;> rfl
    | file | connection => rfl

theorem alone_read (w : World) : w.alone.read = (w.read.1.alone, w.read.2) := by
  simp only [read, alone_drain, alone_readLive]

theorem alone_closeListener (w : World) :
    w.alone.closeListener = (w.closeListener.1.alone, w.closeListener.2) := by
  have same : w.alone.listener = w.listener := rfl
  unfold closeListener
  rw [same]
  cases w.listener with
  | none => rfl
  | some id =>
    have same : w.alone.traffic = w.traffic := rfl
    simp only [same]
    cases w.traffic.closeListener id <;> rfl

theorem alone_openFile (w : World) :
    w.alone.openFile = (w.openFile.1.alone, w.openFile.2) := by
  have files : w.alone.files = w.files := rfl
  have config : w.alone.config = w.config := rfl
  simp only [openFile, files, config]
  cases w.files.openShared w.config.filePath with
  | ok opened => rfl
  | error error => cases error <;> rfl

/-- A switch to another target than the network does not depend on the session. -/
theorem alone_switch (away : w.target ≠ .http) (name : String)
    (other : name ≠ Source.Target.http.name) :
    w.alone.switch name = ((w.switch name).1.alone, (w.switch name).2) := by
  have away' : w.alone.target ≠ .http := away
  simp only [switch, enter, away, away', ↓reduceIte]
  cases found : Source.Target.ofName? name with
  | none => rfl
  | some target =>
    cases target with
    | std | tcp => rfl
    | file => exact alone_openFile w
    | http => exact absurd (Source.Target.ofName?_eq_some_iff.mp found) other

theorem alone_close (w : World) : w.alone.close = (w.close.1.alone, w.close.2) := by
  simp only [close, alone_closeListener]
  cases w.closeListener.2 <;> rfl

theorem alone_release {α : Type} (w : World) (result : Except Fault α) :
    w.alone.release result = ((w.release result).1.alone, (w.release result).2) := by
  simp only [release, alone_close]
  generalize w.close = closed
  obtain ⟨v, closed⟩ := closed
  match closed with
  | .ok () | .error (.fault _) | .error (.failure _) => rfl

end World

/-- A pause is a pause of the session only. -/
def Phase.alone : Phase → Phase
  | .paused => .ready
  | phase => phase

namespace Machine

variable {m : Machine}

/-- A machine without its debug session, and with nothing left to pause for. -/
def alone (m : Machine) : Machine :=
  { m with world := m.world.alone, steering := {}, phase := m.phase.alone }

theorem alone_output (away : m.world.target ≠ .http) (own : m.world.console.forwarded = false)
    (head : Header) (next : Block) :
    m.alone.output head next = (m.output head next).alone := by
  have away' : m.alone.world.target ≠ .http := away
  have world : m.alone.world = m.world.alone := rfl
  have tape : m.alone.tape = m.tape := rfl
  simp only [output_away away, output_away away', withWorld_eq, world, tape,
    World.alone_broadcast own]
  cases (m.world.broadcast m.tape.current).2 <;> rfl

theorem alone_input (head : Header) (next : Block) :
    m.alone.input head next = (m.input head next).alone := by
  have world : m.alone.world = m.world.alone := rfl
  simp only [input, withWorld_eq, world, World.alone_read]
  cases m.world.read.2 <;> rfl

/-- An action does the same without the session. -/
theorem alone_perform (offline : m.Offline) (own : m.world.console.forwarded = false)
    (rest : m.frame.rest = .act head action next) :
    m.alone.perform head action next = (m.perform head action next).alone := by
  cases action with
  | increment | decrement | clear | push | none => rfl
  | moveRight | moveLeft =>
    have tape : m.alone.tape = m.tape := rfl
    simp only [perform, tape]
    split <;> rfl
  | output => exact alone_output offline.away own head next
  | input => exact alone_input head next
  | switch name =>
    have allowed : name ≠ Source.Target.http.name := bne_iff_ne.mp (offline.allowed rest)
    have world : m.alone.world = m.world.alone := rfl
    simp only [perform, withWorld_eq, world, World.alone_switch offline.away name allowed]
    cases (m.world.switch name).2 with
    | ok => rfl
    | error reason => cases reason <;> rfl

/-- A statement about to act does the same without the session. -/
theorem alone_act (offline : m.Offline) (own : m.world.console.forwarded = false) :
    m.alone.act = m.act.alone := by
  have same : m.alone.frame = m.frame := rfl
  have tape : m.alone.tape = m.tape := rfl
  cases rest : m.frame.rest with
  | nil => simp only [act, same, rest]; rfl
  | act head action next =>
    simp only [act, same, rest, tape]
    split
    · rfl
    · exact alone_perform offline own rest
  | loop head body next =>
    simp only [act, same, rest, tape]
    split
    · rfl
    · split <;> rfl

/-- The end of a block is the same without the session. -/
theorem alone_endBlock (m : Machine) : m.alone.endBlock = m.endBlock.alone := by
  have same : m.alone.outer = m.outer := rfl
  have tape : m.alone.tape = m.tape := rfl
  cases outer : m.outer with
  | nil => simp only [endBlock, same, outer]; rfl
  | cons parent outer' =>
    simp only [endBlock, same, outer, tape]
    split
    · rfl
    · split
      · split <;> rfl
      · rfl

end Machine
end TapeLang

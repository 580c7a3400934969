import TapeLang.Debug.Steering
import TapeLang.World

/-!
The state of a running program. Execution stands in a frame, the block it is in and what is left of
it, inside the frames of the loops around. Each statement goes through the same phases: it is looked
at, and there execution may pause; while it is paused, commands are answered one at a time; and then
it acts. A run that has ended stays as it is.
-/
namespace TapeLang

open Source (Block Header Position)
open Debug (Steering)

/-- A block in execution: the whole of it, the index of the current statement, and the block from
that statement on. -/
structure Frame where
  block : Block
  index : Nat
  rest : Block
deriving DecidableEq, Repr

namespace Frame

/-- A block about to be executed. -/
def enter (block : Block) : Frame := ⟨block, 0, block⟩

/-- The frame with the statements after the current one left. -/
def past (f : Frame) (next : Block) : Frame := { f with index := f.index + 1, rest := next }

end Frame

/-- How execution ended. -/
inductive Outcome where
  | completed
  /-- the client left the program by stepping out of its outermost block -/
  | steppedOut
  | failed (failure : Failure) (position : Position)
  | broken (fault : Fault)
deriving DecidableEq, Repr

inductive Phase where
  /-- the current statement has not been looked at, or the block is at its end -/
  | arriving
  /-- waiting for a command before the current statement -/
  | paused
  /-- the current statement is about to act -/
  | ready
  | halted (outcome : Outcome)
deriving DecidableEq, Repr

structure Machine where
  frame : Frame
  /-- the frames around, innermost first -/
  outer : List Frame
  phase : Phase
  tape : Tape
  world : World
  steering : Steering
deriving DecidableEq, Repr

namespace Machine

/-- A program about to run. -/
def start (program : Block) (tape : Tape) (world : World) : Machine :=
  { frame := .enter program, outer := [], phase := .arriving, tape, world, steering := {} }

/-- Runs another program in the state that the last one left. -/
def load (m : Machine) (program : Block) : Machine :=
  { m with frame := .enter program, outer := [], phase := .arriving }

/-- How many loops are around the current block. -/
def depth (m : Machine) : Nat := m.outer.length

/-- The site of the loop around the current block. -/
def around (m : Machine) : Block.Site := m.outer.map (·.index)

/-- The site of the current statement. -/
def site (m : Machine) : Block.Site := m.frame.index :: m.around

/-- How the run ended, if it has. -/
def outcome? (m : Machine) : Option Outcome :=
  match m.phase with
  | .halted outcome => some outcome
  | _ => none

/-- Ends the run. -/
def halt (m : Machine) (outcome : Outcome) : Machine := { m with phase := .halted outcome }

/-- Goes on to the statements after the current one. -/
def advance (m : Machine) (next : Block) : Machine :=
  { m with frame := m.frame.past next, phase := .arriving }

/-- Changes the world by an operation that may not go through, and goes on with its result. -/
def withWorld {α : Type} (m : Machine) (f : World → World × α) (k : Machine → α → Machine) :
    Machine :=
  match m with
  | { frame, outer, phase, tape, world, steering } =>
    let (world, result) := f world
    k { frame, outer, phase, tape, world, steering } result

/-- Changes the debug session, if there is one. -/
def withSession {α : Type} (m : Machine) (f : Debug.Session → Debug.Session × α)
    (k : Machine → α → Machine) : Machine :=
  match m.world.session with
  | some session =>
    let (session, result) := f session
    k { m with world := { m.world with session := some session } } result
  | none => m

/-- Whether pauses reach a client. -/
def attached (m : Machine) : Bool :=
  match m.world.session with
  | some session => session.attached
  | none => false

end Machine
end TapeLang

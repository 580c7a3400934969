import TapeLang.Source.Block

/-!
Where a program pauses next. Marked statements are armed for the whole run; step commands arm a
statement for one pause. A step past the end of a block has no statement to arm: it is carried until
that block ends and then counts the statements that follow.
-/
namespace TapeLang.Debug

open Source (Block)

/-- Execution-only pause state. -/
structure Steering where
  /-- statements armed for one pause -/
  transient : List Block.Site := []
  /-- pause at the n-th statement from now on; zero is off -/
  countdown : Nat := 0
  /-- once the block at a depth ends, count this many statements -/
  carry : Option (Nat × Nat) := none
deriving DecidableEq, Repr

namespace Steering

/-- Whether a statement is armed. -/
def isArmed (s : Steering) (site : Block.Site) (marked : Bool) : Bool :=
  marked || s.transient.contains site

/-- Arms a statement for one pause. -/
def arm (s : Steering) (site : Block.Site) : Steering :=
  { s with transient := if s.transient.contains site then s.transient else site :: s.transient }

/-- Uses up the one-time arm of a statement. -/
def consume (s : Steering) (site : Block.Site) : Steering :=
  { s with transient := s.transient.filter (· != site) }

/-- Forgets all one-time arms. -/
def clearTransient (s : Steering) : Steering := { s with transient := [] }

/-- Forgets everything that earlier commands asked for. -/
def resume (_ : Steering) : Steering := {}

/-- Whether to pause before a statement. A countdown that runs is counted down. -/
def shouldPause (s : Steering) (site : Block.Site) (marked : Bool) : Bool × Steering :=
  match s.countdown with
  | 0 => (s.isArmed site marked, s)
  | 1 => (true, { s with countdown := 0 })
  | n + 2 => (s.isArmed site marked, { s with countdown := n + 1 })

/-- The pause state when a program pauses before a statement. -/
def entered (s : Steering) (site : Block.Site) : Steering :=
  { s.consume site with countdown := 0, carry := none }

/-- Asks for a pause `distance` statements after the one at `index`. `length` is the length of the
block and `around` the site of the loop around it. -/
def armAhead (s : Steering) (length index : Nat) (around : Block.Site) (distance : Nat) : Steering :=
  if index + distance < length then s.arm ((index + distance) :: around)
  else { s with carry := some (around.length, index + distance - length + 1) }

/-- A block at a depth came to its end. -/
def blockEnded (s : Steering) (depth : Nat) : Steering :=
  match s.carry with
  | some (level, count) =>
    if level = depth then { s with carry := none, countdown := count } else s
  | none => s

/-- A loop was left early: pause at whatever comes next. -/
def steppedOut (s : Steering) : Steering := { s with countdown := 1 }

end Steering
end TapeLang.Debug

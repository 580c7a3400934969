/-!
Wait groups. A wait group counts what is still under way; a waiter is let through when the count is
zero. The count never goes below zero: taking away more than is there is refused. A program and the
listener it opens share three groups by name: `program` is held while a listener is open,
`http-connection` while the next connection is awaited, and `write` by every connection that has not
been answered.
-/
namespace TapeLang

/-- Misuse of a wait group. -/
inductive WaitFault where
  | negative (name : String)
  | unknown (name : String)
deriving DecidableEq, Repr

def WaitFault.message : WaitFault → String
  | .negative name => s!"waiter '{name}' count would go negative"
  | .unknown name => s!"unknown waiter '{name}'"

structure WaitGroup where
  name : String := ""
  count : Nat := 0
deriving DecidableEq, Repr

namespace WaitGroup

/-- Adds an amount, which may be negative. -/
def add (g : WaitGroup) (amount : Int) : Except WaitFault WaitGroup :=
  if g.count + amount < 0 then .error (.negative g.name)
  else .ok { g with count := (g.count + amount).toNat }

/-- Takes one away. -/
def done (g : WaitGroup) : Except WaitFault WaitGroup := g.add (-1)

/-- Takes one away if any is there, and says whether it did. -/
def doneIfPending (g : WaitGroup) : Bool × WaitGroup :=
  match g.count with
  | 0 => (false, g)
  | count + 1 => (true, { g with count := count })

/-- Whether a waiter is let through. -/
def isReleased (g : WaitGroup) : Bool := g.count == 0

end WaitGroup

/-- Wait groups found by name. -/
structure Waiters where
  groups : List WaitGroup
deriving DecidableEq, Repr

namespace Waiters

/-- One group at zero for each name. -/
def ofNames (names : List String) : Waiters := ⟨names.map ({ name := · })⟩

def program : String := "program"
def connection : String := "http-connection"
def write : String := "write"

/-- The groups that a program shares with its listener. -/
def standard : Waiters := ofNames [program, connection, write]

/-- The group of a name. -/
def group (w : Waiters) (name : String) : Except WaitFault WaitGroup :=
  match w.groups.find? (·.name == name) with
  | some g => .ok g
  | none => .error (.unknown name)

/-- Replaces the group of the same name. -/
def set (w : Waiters) (g : WaitGroup) : Waiters :=
  ⟨w.groups.map fun old => if old.name = g.name then g else old⟩

def count (w : Waiters) (name : String) : Except WaitFault Nat := (w.group name).map (·.count)

def add (w : Waiters) (name : String) (amount : Int) : Except WaitFault Waiters := do
  return w.set (← (← w.group name).add amount)

def done (w : Waiters) (name : String) : Except WaitFault Waiters := w.add name (-1)

def doneIfPending (w : Waiters) (name : String) : Except WaitFault (Bool × Waiters) := do
  let (released, g) := (← w.group name).doneIfPending
  return (released, w.set g)

def isReleased (w : Waiters) (name : String) : Except WaitFault Bool := do
  return (← w.group name).isReleased

end Waiters
end TapeLang

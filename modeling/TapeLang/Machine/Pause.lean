import TapeLang.Machine.Snapshot

/-!
Pauses. A pause shows a snapshot and then answers one command at a time: steps and resumption end
it, an assignment changes a cell and shows the new state, and what cannot be acted on is ignored. A
client that is gone ends the pause, and the program runs on. Stepping out leaves the innermost loop at
once, and in the outermost block the program.
-/
namespace TapeLang.Machine

open Source (Block Header Position Statement)
open Debug (Command Heard Operation Session)

/-- Shows where the machine paused and waits for commands. -/
def showState (m : Machine) (s : Statement) : Machine :=
  let snapshot := m.snapshot s
  m.withSession (·.sendState snapshot) fun m error? =>
    match error? with
    | none => { m with phase := .paused }
    | some error => m.halt (.failed (.os error) s.head.position)

/-- Looks at the current statement: pauses there, or lets it act. -/
def look (m : Machine) (s : Statement) : Machine :=
  if m.attached then
    let (pause, steering) := m.steering.shouldPause m.site s.head.marked
    if pause then { m with steering := steering.entered m.site }.showState s
    else { m with steering, phase := .ready }
  else { m with phase := .ready }

/-- Ends a pause: the statement acts. -/
def proceed (m : Machine) : Machine :=
  { m with
    phase := .ready
    world := { m.world with session := m.world.session.map Session.resume } }

/-- Arms the statement `distance` places on. -/
def armAhead (m : Machine) (distance : Nat) : Machine :=
  { m with
    steering := m.steering.armAhead m.frame.block.length m.frame.index m.around distance }

/-- Leaves the innermost loop, or the program where there is none. -/
def stepOut (m : Machine) : Machine :=
  let m := { m with steering := m.steering.resume }.proceed
  match m.outer with
  | [] => m.halt .steppedOut
  | parent :: outer =>
    let m := { m with frame := parent, outer, steering := m.steering.steppedOut }
    match parent.rest.uncons? with
    | some (_, next) => m.advance next
    | none => { m with phase := .arriving }

/-- Acts on a command before a statement. -/
def answer (m : Machine) (s : Statement) (c : Command) : Machine :=
  match Operation.ofName? c.operation with
  | none => m
  | some .step => (m.armAhead 1).proceed
  | some .stepOver => (m.armAhead 2).proceed
  | some .move =>
    match c.cell.map m.tape.seek with
    | some (.ok tape) => ({ m with tape }.armAhead 1).proceed
    | _ => m
  | some .resume => { m with steering := m.steering.resume }.proceed
  | some .stepOut => m.stepOut
  | some .assign =>
    match c.cell, c.value with
    | some cell, some value =>
      match m.tape.store cell value with
      | .ok tape => { m with tape }.showState s
      | .error _ => m
    | _, _ => m

/-- Waits for a command before a statement and acts on it. -/
def hear (m : Machine) (s : Statement) : Machine :=
  m.withSession (fun session => let (heard, session) := session.readCommand; (session, heard))
    fun m heard =>
      match heard with
      | .waiting => m
      | .gone => { m with steering := m.steering.resume, phase := .ready }
      | .failed error => m.halt (.failed (.os error) s.head.position)
      | .refused (.protocol error) => m.halt (.failed (.protocol error) s.head.position)
      | .refused (.number fault) => m.halt (.broken (.number fault))
      | .command command => m.answer s command

end TapeLang.Machine

import TapeLang.Machine.Pause

/-!
One step of a machine. A statement is looked at, paused before, and made to act, in steps of their
own; an action moves on to the next statement, and a loop whose cell is not zero enters its body. At
the end of a body the cell is tested again.
-/
namespace TapeLang.Machine

open Source (Action Block Header Position Statement)

/-- Ends the run at a statement, or beyond it. -/
def stop (m : Machine) (head : Header) : Stop → Machine
  | .failure failure => m.halt (.failed failure head.position)
  | .fault fault => m.halt (.broken fault)

/-- Writes the current cell. On the network a connection is awaited first, and a zero completes its
response. -/
def output (m : Machine) (head : Header) (next : Block) : Machine :=
  let value := m.tape.current
  let send (m : Machine) : Machine :=
    m.withWorld (·.broadcast value) fun m result =>
      match result with
      | .ok () => m.advance next
      | .error error => m.stop head (.failure (.os error))
  if m.world.target = .http then
    match m.world.awaitConnection with
    | .error fault => m.stop head (.fault (.wait fault))
    | .ok (world, false) => { m with world }
    | .ok (world, true) =>
      if value = 0 then
        match world.finishCycle with
        | .ok world => { m with world }.advance next
        | .error fault => m.stop head (.fault (.wait fault))
      else send { m with world }
  else send m

/-- Reads into the current cell. -/
def input (m : Machine) (head : Header) (next : Block) : Machine :=
  m.withWorld (·.read) fun m result =>
    match result with
    | .ok byte => { m with tape := m.tape.write byte }.advance next
    | .error error => m.stop head (.failure (.os error))

/-- Makes an action happen. -/
def perform (m : Machine) (head : Header) (action : Action) (next : Block) : Machine :=
  match action with
  | .increment => { m with tape := m.tape.increment }.advance next
  | .decrement => { m with tape := m.tape.decrement }.advance next
  | .clear => { m with tape := m.tape.clear }.advance next
  | .push value => { m with tape := m.tape.write (Tape.byte value) }.advance next
  | .moveRight =>
    if m.tape.cursor + 1 < m.tape.size then { m with tape := m.tape.right }.advance next
    else m.stop head (.failure .overflow)
  | .moveLeft =>
    if 0 < m.tape.cursor then { m with tape := m.tape.left }.advance next
    else m.stop head (.failure .underflow)
  | .output => m.output head next
  | .input => m.input head next
  | .switch target =>
    m.withWorld (·.switch target) fun m result =>
      match result with
      | .ok () => m.advance next
      | .error reason => m.stop head reason
  | .none => m.stop head (.fault (.unsupported Action.none.name))

/-- Whether an action reads or changes the current cell. -/
def usesCell : Action → Bool
  | .increment | .decrement | .push _ | .output | .input => true
  | _ => false

/-- Lets the current statement act. -/
def act (m : Machine) : Machine :=
  match m.frame.rest with
  | .nil => { m with phase := .arriving }
  | .act head action next =>
    if usesCell action && !m.tape.hasCell then m.halt (.broken (.tape .noCell))
    else m.perform head action next
  | .loop _ body next =>
    if !m.tape.hasCell then m.halt (.broken (.tape .noCell))
    else if m.tape.current = 0 then m.advance next
    else { m with frame := .enter body, outer := m.frame :: m.outer, phase := .arriving }

/-- Comes to the end of a block: the program ends, or the loop around tests its cell. -/
def endBlock (m : Machine) : Machine :=
  let m := { m with steering := m.steering.blockEnded m.depth }
  match m.outer with
  | [] => m.halt .completed
  | parent :: outer =>
    if !m.tape.hasCell then m.halt (.broken (.tape .noCell))
    else if m.tape.current = 0 then
      match parent.rest.uncons? with
      | some (_, next) => { m with frame := parent, outer }.advance next
      | none => { m with frame := parent, outer }
    else { m with frame := .enter m.frame.block }

/-- One step. A machine that has ended, or that waits for a command or a connection, stays. -/
def step (m : Machine) : Machine :=
  match m.phase with
  | .halted _ => m
  | .arriving =>
    match m.frame.rest.uncons? with
    | some (s, _) => m.look s
    | none => m.endBlock
  | .paused =>
    match m.frame.rest.uncons? with
    | some (s, _) => m.hear s
    | none => { m with phase := .arriving }
  | .ready => m.act

/-! ## Waiting -/

/-- Whether a paused machine has no command to read yet. -/
def awaitsCommand (m : Machine) : Bool :=
  match m.phase, m.world.session with
  | .paused, some session => session.reader.pending.isEmpty && !session.reader.complete
  | _, _ => false

/-- Whether an output on the network has no connection to go to yet. -/
def awaitsConnection (m : Machine) : Bool :=
  match m.phase, m.frame.rest with
  | .ready, .act _ .output _ =>
    m.world.target = .http && m.world.drain.endpoints.isEmpty &&
      !((m.world.traffic.waiters.isReleased Waiters.connection).toOption.getD true)
  | _, _ => false

/-- Whether nothing happens until somebody else acts. -/
def waits (m : Machine) : Bool := m.awaitsCommand || m.awaitsConnection

end TapeLang.Machine

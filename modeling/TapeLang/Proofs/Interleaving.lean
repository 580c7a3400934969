import TapeLang.World

/-!
The interpreter and the handlers of all connections, one atomic step at a time. A handler takes the
steps of its stages (`Traffic.handle`), and a connection may arrive at any listener at any moment. The
interpreter works on one operation at a time, and its control says which atomic step comes next: each
look at a count, each change of one, each endpoint taken out of an inbox, written to or finished is a
step of its own, so that handlers get in between. A step that has to wait changes nothing.

What happens is recorded in a log, last first. Nothing reads it; it is there to say what has happened.
-/
namespace TapeLang.Interleaving

open Http (Connection Listener Reply Stage Traffic)
open Source (Target)

inductive Event where
  | registered (id : Nat)
  | rejected (id : Nat)
  | replied (id : Nat) (reply : Reply)
  | wrote (id : Nat) (byte : UInt8)
  /-- the response of a connection was marked as complete -/
  | finished (id : Nat)
  /-- the close of a listener has returned -/
  | closed (listener : Nat)
deriving DecidableEq, Repr

/-- What the interpreter is asked to do with its endpoints and its listener. -/
inductive Operation where
  | awaitConnection
  | broadcast (value : UInt8)
  | read
  | finishCycle
  | switch (name : String)
  | close
deriving DecidableEq, Repr

/-- What a listener is closed for. -/
inductive Purpose where
  | switch (name : String)
  | close
deriving DecidableEq, Repr

/-- What the inbox is taken over for. -/
inductive Drained where
  | await (again : Bool)
  | broadcast (value : UInt8)
  | read
deriving DecidableEq, Repr

/-- What the group of awaited connections is armed for. -/
inductive Armed where
  | listen (type : Option String)
  | await
  | finish (left : List Nat)
deriving DecidableEq, Repr

/-- The next step of the interpreter. -/
inductive Control where
  | idle
  /-- taking endpoints out of the inbox; `fresh` are those taken so far -/
  | draining (fresh : List Nat) (next : Drained)
  /-- looking for an attached endpoint, before or after the wait -/
  | testing (again : Bool)
  /-- blocked until the group of awaited connections is at zero -/
  | waiting
  /-- looking whether the group of awaited connections is at zero -/
  | counting (next : Armed)
  /-- about to add to the group of awaited connections -/
  | arming (next : Armed)
  | writing (value : UInt8) (left : List Endpoint)
  | reading
  /-- completing the responses of a cycle -/
  | finishing (left : List Nat)
  /-- about to close a listener to new connections -/
  | shutting (listener : Nat) (purpose : Purpose)
  /-- completing the responses of a listener that closes -/
  | completing (listener : Nat) (left : List Nat) (purpose : Purpose)
  /-- blocked until no connection is unanswered -/
  | settling (listener : Nat) (purpose : Purpose)
  /-- about to release whoever awaits a connection -/
  | disarming (listener : Nat) (purpose : Purpose)
  /-- about to let go of the program -/
  | releasing (listener : Nat) (purpose : Purpose)
  /-- about to make a target active -/
  | entering (name : String)
  /-- about to hold the program for a new listener -/
  | holding (type : Option String)
  /-- about to accept connections -/
  | listening (type : Option String)
  /-- about to make a new listener the open one -/
  | attaching (listener : Nat)
  /-- blocked until nothing holds the program -/
  | ending
deriving DecidableEq, Repr

def Purpose.control : Purpose → Control
  | .switch name => .entering name
  | .close => .ending

def Drained.control (endpoints : List Endpoint) : Drained → Control
  | .await again => .testing again
  | .broadcast value => .writing value endpoints
  | .read => .reading

def Armed.control : Armed → Control
  | .listen type => .listening type
  | .await => .draining [] (.await false)
  | .finish left => .finishing left

structure System where
  world : World
  control : Control := .idle
  log : List Event := []
deriving DecidableEq, Repr

/-- The connection of an endpoint, if it has one. -/
def connection? : Endpoint → Option Nat
  | .connection id => some id
  | _ => none

/-- The connections that a listener registered and nobody has taken over yet. -/
def inboxOf (t : Traffic) (listener : Option Nat) : List Nat :=
  match listener.bind (t.listeners[·]?) with
  | some l => l.inbox
  | none => []

namespace System

/-! ## The interpreter -/

def setTraffic (s : System) (traffic : Traffic) : System :=
  { s with world := { s.world with traffic } }

def setWaiters (s : System) (waiters : Waiters) : System :=
  s.setTraffic { s.world.traffic with waiters }

/-- Goes on with another step. -/
def goto (s : System) (control : Control) : System := { s with control }

def record (s : System) (events : List Event) : System := { s with log := events ++ s.log }

/-- Marks the response of a connection as complete. -/
def finish (s : System) (id : Nat) : System :=
  (s.setTraffic (s.world.traffic.finish id)).record [.finished id]

/-- The inbox of the open listener. -/
def inbox (s : System) : List Nat := inboxOf s.world.traffic s.world.listener

/-- Takes the first endpoint out of the inbox, or attaches those taken where there is none. -/
def drainStep (s : System) (fresh : List Nat) (next : Drained) : System :=
  match s.world.listener, s.inbox with
  | some id, first :: rest =>
    let listeners := s.world.traffic.listeners.modify id ({ · with inbox := rest })
    (s.setTraffic { s.world.traffic with listeners }).goto (.draining (fresh ++ [first]) next)
  | _, _ =>
    let endpoints := s.world.endpoints ++ fresh.map .connection
    { s with world := { s.world with endpoints }, control := next.control endpoints }

/-- Writes to the next endpoint; the first that fails ends the operation. -/
def writeStep (s : System) (value : UInt8) : List Endpoint → System
  | [] => s.goto .idle
  | endpoint :: rest =>
    match s.world.writeByte value endpoint with
    | .ok world =>
      { s with world, control := .writing value rest }.record
        ((connection? endpoint).toList.map (.wrote · value))
    | .error _ => s.goto .idle

/-- Closes a listener to new connections, unless it is closed. -/
def shutStep (s : System) (id : Nat) (purpose : Purpose) : System :=
  match s.world.traffic.listeners[id]? with
  | some l =>
    if l.closed then s.goto purpose.control
    else (s.setTraffic (s.world.traffic.shut id).1).goto (.completing id l.issued purpose)
  | none => s.goto purpose.control

/-- Makes a target active, or begins to open a listener. -/
def enterStep (s : System) (name : String) : System :=
  match Target.ofName? name with
  | some .std => { s with world := s.world.setConsole, control := .idle }
  | some .file => { s with world := s.world.openFile.1, control := .idle }
  | some .tcp => { s with world := s.world.setTcp, control := .idle }
  | some .http =>
    match BindAddress.parse? s.world.config.httpAddress with
    | some address =>
      if (World.bindStop? s.world.config address).isSome then s.goto .idle
      else s.goto (.holding (MediaType.ofResource s.world.config.filePath))
    | none => s.goto .idle
  | none => s.goto .idle

/-- Makes a new listener the open one. -/
def attachStep (s : System) (id : Nat) : System :=
  { s with
    world := { s.world with target := .http, endpoints := [], listener := some id }
    control := .idle }

/-- Closes every handle that was opened. -/
def endStep (s : System) : System :=
  { s with
    world := { s.world with
      files := s.world.opened.foldl Host.Files.close s.world.files, opened := [] }
    control := .idle }

/-- The next step of the interpreter. -/
def interpret (s : System) : Except WaitFault System :=
  let traffic := s.world.traffic
  match s.control with
  | .idle => .ok s
  | .draining fresh next => .ok (s.drainStep fresh next)
  | .testing again =>
    .ok (s.goto (if !s.world.endpoints.isEmpty then .idle
      else if again then .counting .await else .waiting))
  | .waiting => do
    return if ← traffic.waiters.isReleased Waiters.connection
      then s.goto (.draining [] (.await true)) else s
  | .counting next => do
    return s.goto (if (← traffic.waiters.count Waiters.connection) = 0 then .arming next
      else next.control)
  | .arming next => do
    return (s.setWaiters (← traffic.waiters.add Waiters.connection 1)).goto next.control
  | .writing value left => .ok (s.writeStep value left)
  | .reading => .ok { s with world := s.world.readLive.1, control := .idle }
  | .finishing [] => .ok (s.goto .idle)
  | .finishing (id :: left) => .ok ((s.finish id).goto (.finishing left))
  | .shutting id purpose => .ok (s.shutStep id purpose)
  | .completing id [] purpose => .ok (s.goto (.settling id purpose))
  | .completing id (first :: left) purpose =>
    .ok ((s.finish first).goto (.completing id left purpose))
  | .settling id purpose => do
    return if ← traffic.waiters.isReleased Waiters.write
      then s.goto (.disarming id purpose) else s
  | .disarming id purpose => do
    let (_, waiters) ← traffic.waiters.doneIfPending Waiters.connection
    return (s.setWaiters waiters).goto (.releasing id purpose)
  | .releasing id purpose => do
    let waiters ← traffic.waiters.done Waiters.program
    return ((s.setWaiters waiters).record [.closed id]).goto purpose.control
  | .entering name => .ok (s.enterStep name)
  | .holding type => do
    return (s.setWaiters (← traffic.waiters.add Waiters.program 1)).goto (.counting (.listen type))
  | .listening type =>
    .ok ((s.setTraffic { traffic with listeners := traffic.listeners.push { contentType := type } }).goto
      (.attaching traffic.listeners.size))
  | .attaching id => .ok (s.attachStep id)
  | .ending => do
    return if ← traffic.waiters.isReleased Waiters.program then s.endStep else s

/-- Forgets listener and endpoints, and closes the listener if there was one. -/
def leave (s : System) (purpose : Purpose) : System :=
  { s with
    world := { s.world with listener := none, endpoints := [] }
    control := match s.world.listener with
      | some id => .shutting id purpose
      | none => purpose.control }

/-- Begins an operation. -/
def undertake (s : System) : Operation → System
  | .awaitConnection => s.goto (.draining [] (.await false))
  | .broadcast value => s.goto (.draining [] (.broadcast value))
  | .read => s.goto (.draining [] .read)
  | .finishCycle =>
    { s with
      world := { s.world with endpoints := [] }
      control := .counting (.finish (s.world.endpoints.filterMap connection?)) }
  | .switch name =>
    if s.world.target = .http then s.leave (.switch name) else s.goto (.entering name)
  | .close => s.leave .close

/-! ## The handlers -/

/-- What the step of a handler did, seen from its connection before and after. -/
def happened (id : Nat) : Option Connection → Option Connection → List Event
  | some before, some after =>
    match before.stage with
    | .registering => if after.stage = .refusing then [.rejected id] else [.registered id]
    | .answering | .refusing =>
      if after.stage = .leaving then (after.reply.map (.replied id)).toList else []
    | _ => []
  | _, _ => []

/-- The next step of the handler of a connection. -/
def handle (s : System) (id : Nat) : Except WaitFault System := do
  let traffic ← s.world.traffic.handle id
  return (s.setTraffic traffic).record
    (happened id s.world.traffic.connections[id]? traffic.connections[id]?)

end System

/-! ## Runs -/

/-- Who takes a step. -/
inductive Action where
  /-- a client connects to a listener and its request is read -/
  | arrive (listener : Nat) (body : List UInt8)
  | handle (id : Nat)
  | interpret
  /-- the interpreter begins an operation, if it is not at work on one -/
  | begin (operation : Operation)
deriving DecidableEq, Repr

namespace System

def step (s : System) : Action → Except WaitFault System
  | .arrive listener body => .ok (s.setTraffic (s.world.traffic.arrive listener body))
  | .handle id => s.handle id
  | .interpret => s.interpret
  | .begin operation => .ok (if s.control = .idle then s.undertake operation else s)

/-- The steps of a list, one after the other. -/
def run (s : System) (actions : List Action) : Except WaitFault System := actions.foldlM step s

end System

/-- Before the first step nothing has connected, and no listener has been opened. -/
def initial (console : Console) (session : Option Debug.Session) (files : Host.Files)
    (config : Config) : System :=
  { world := { console, session, files, config } }

/-- The states that the interpreter and any handlers get to in any order of their steps. -/
inductive Reachable : System → Prop where
  | initial : Reachable (initial console session files config)
  | step (reachable : Reachable s) (stepped : s.step action = .ok t) : Reachable t

theorem Reachable.run (reachable : Reachable s) (ran : s.run actions = .ok t) : Reachable t := by
  induction actions generalizing s with
  | nil =>
    obtain rfl := Except.ok.inj ran
    exact reachable
  | cons action actions ih =>
    simp only [System.run, List.foldlM_cons] at ran
    cases stepped : s.step action with
    | error fault => simp [stepped, bind, Except.bind] at ran
    | ok u =>
      rw [stepped] at ran
      exact ih (reachable.step stepped) ran

end TapeLang.Interleaving

import TapeLang.MediaType.Sniff
import TapeLang.WaitGroup

/-!
Listeners and their connections. Each connection has a handler of its own, which goes through fixed
stages: it counts itself among the unanswered ones, registers with the listener or is turned away
when the listener is closed, releases whoever awaits a connection, waits until the interpreter has
finished its response, sends it, and takes itself off the count. Each stage is one step here, so the
handlers and the interpreter can be interleaved in any order; what the interpreter does to the shared
state is made of steps of the same size.
-/
namespace TapeLang.Http

/-- What a client got. -/
inductive Reply where
  | answered (type : String) (body : List UInt8)
  | refused (status : Nat) (reason : String)
deriving DecidableEq, Repr

/-- Where the handler of a connection stands. -/
inductive Stage where
  /-- the request was read -/
  | counting
  | registering
  /-- registered, and about to release whoever awaits a connection -/
  | releasing
  | waiting
  | answering
  | refusing
  /-- replied, and about to leave the count -/
  | leaving
  | gone
deriving DecidableEq, Repr

structure Connection where
  listener : Nat
  /-- what is left of the request's body -/
  input : List UInt8
  /-- the response's body so far -/
  output : Array UInt8 := #[]
  finished : Bool := false
  stage : Stage := .counting
  reply : Option Reply := none
deriving DecidableEq, Repr

structure Listener where
  /-- the type of every response, if the name of the resource implies one -/
  contentType : Option String
  closed : Bool := false
  /-- connections that are to be finished when the listener closes -/
  issued : List Nat := []
  /-- connections that the interpreter has not taken over yet -/
  inbox : List Nat := []
deriving DecidableEq, Repr

/-- What the interpreter and all handlers share. -/
structure Traffic where
  waiters : Waiters := .standard
  listeners : Array Listener := #[]
  connections : Array Connection := #[]
deriving DecidableEq, Repr

namespace Traffic

/-- Changes a connection. -/
def update (t : Traffic) (id : Nat) (f : Connection → Connection) : Traffic :=
  { t with connections := t.connections.modify id f }

/-- Moves a handler to a stage. -/
def setStage (t : Traffic) (id : Nat) (stage : Stage) : Traffic :=
  t.update id fun c => { c with stage }

/-- A client connects to a listener and its request is read. -/
def arrive (t : Traffic) (listener : Nat) (body : List UInt8) : Traffic :=
  { t with connections := t.connections.push { listener, input := body } }

/-- The response that a connection gets. -/
def response (l : Listener) (c : Connection) : Reply :=
  let body := c.output.toList
  .answered (l.contentType.getD (MediaType.sniff body)) body

/-- The step of registering: a closed listener turns the connection away. -/
def register (t : Traffic) (id : Nat) (listener : Nat) : Traffic :=
  match t.listeners[listener]? with
  | some l =>
    if l.closed then t.setStage id .refusing
    else
      let l := { l with issued := l.issued ++ [id], inbox := l.inbox ++ [id] }
      { t with listeners := t.listeners.setIfInBounds listener l }.setStage id .releasing
  | none => t.setStage id .refusing

/-- One step of a handler. A handler that waits for its response stays where it is. -/
def handle (t : Traffic) (id : Nat) : Except WaitFault Traffic :=
  match t.connections[id]? with
  | none => .ok t
  | some c =>
    match c.stage with
    | .counting => do
      return { t with waiters := ← t.waiters.add Waiters.write 1 }.setStage id .registering
    | .registering => .ok (t.register id c.listener)
    | .releasing => do
      let (_, waiters) ← t.waiters.doneIfPending Waiters.connection
      return { t with waiters }.setStage id .waiting
    | .waiting => .ok (if c.finished then t.setStage id .answering else t)
    | .answering =>
      match t.listeners[c.listener]? with
      | some l => .ok (t.update id fun c => { c with reply := some (response l c), stage := .leaving })
      | none => .ok t
    | .refusing =>
      .ok (t.update id fun c =>
        { c with reply := some (.refused 503 "target closed"), stage := .leaving })
    | .leaving => do
      return { t with waiters := ← t.waiters.done Waiters.write }.setStage id .gone
    | .gone => .ok t

/-- The number of steps that take a handler to its end, or to where it waits. -/
def handlerSteps : Nat := 7

/-- Lets a handler go as far as it can. -/
def settleOne (t : Traffic) (id : Nat) : Except WaitFault Traffic :=
  (List.range handlerSteps).foldlM (fun t _ => t.handle id) t

/-- Lets every handler go as far as it can. -/
def settle (t : Traffic) : Except WaitFault Traffic :=
  (List.range t.connections.size).foldlM settleOne t

/-- Marks the response of a connection as complete. -/
def finish (t : Traffic) (id : Nat) : Traffic := t.update id fun c => { c with finished := true }

/-- Opens a listener: it holds the program, and arms the group of awaited connections. -/
def openListener (t : Traffic) (contentType : Option String) :
    Except WaitFault (Traffic × Nat) := do
  let waiters ← t.waiters.add Waiters.program 1
  let waiters ← if (← waiters.count Waiters.connection) = 0
    then waiters.add Waiters.connection 1 else pure waiters
  return ({ t with waiters, listeners := t.listeners.push { contentType } }, t.listeners.size)

/-- Closes a listener to new connections and gives those that are still to be finished. -/
def shut (t : Traffic) (listener : Nat) : Traffic × List Nat :=
  match t.listeners[listener]? with
  | some l =>
    ({ t with listeners := t.listeners.setIfInBounds listener { l with closed := true, issued := [] } },
      l.issued)
  | none => (t, [])

/-- Closes a listener: every registered connection is answered with what was written to it, whoever
awaits a connection is released, and the program is no longer held. A second call does nothing. -/
def closeListener (t : Traffic) (listener : Nat) : Except WaitFault Traffic :=
  match t.listeners[listener]? with
  | some l =>
    if l.closed then .ok t
    else do
      let (t, issued) := t.shut listener
      let t ← (issued.foldl finish t).settle
      let (_, waiters) ← t.waiters.doneIfPending Waiters.connection
      return { t with waiters := ← waiters.done Waiters.program }
  | none => .ok t

/-- Arms the group of awaited connections unless it is armed. -/
def rearm (t : Traffic) : Except WaitFault Traffic := do
  if (← t.waiters.count Waiters.connection) = 0 then
    return { t with waiters := ← t.waiters.add Waiters.connection 1 }
  else return t

/-- Takes the registered connections out of a listener's inbox. -/
def drain (t : Traffic) (listener : Nat) : Traffic × List Nat :=
  match t.listeners[listener]? with
  | some l =>
    if l.inbox.isEmpty then (t, [])
    else ({ t with listeners := t.listeners.setIfInBounds listener { l with inbox := [] } }, l.inbox)
  | none => (t, [])

/-- Adds a byte to the response of a connection. -/
def write (t : Traffic) (id : Nat) (byte : UInt8) : Traffic :=
  t.update id fun c => { c with output := c.output.push byte }

/-- Reads a byte of the request of a connection. -/
def read (t : Traffic) (id : Nat) : Option UInt8 × Traffic :=
  match t.connections[id]? with
  | some c =>
    match c.input with
    | byte :: rest => (some byte, t.update id fun c => { c with input := rest })
    | [] => (none, t)
  | none => (none, t)

end Traffic
end TapeLang.Http

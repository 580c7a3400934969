import TapeLang.Debug.Session
import TapeLang.Failure
import TapeLang.Http.Traffic
import TapeLang.MediaType.Extension

/-!
What a program acts on besides its tape: the console, the debug session, files, listeners, and which
of these its output and input are routed to. Output goes to every live endpoint of the active target;
input comes from the first one, or from the console where there is none. Only the interpreter
changes the routing; connections wait in their listener's inbox until it takes them over.

Under the protocol on the console's own streams, console output is forwarded as messages of the
session, and console input is empty.
-/
namespace TapeLang

open Host (OsError Sink Source Files)
open TapeLang.Source (Target)

structure Console where
  out : Sink := {}
  err : Sink := {}
  input : Host.Source := {}
  /-- output goes out as messages of the debug session -/
  forwarded : Bool := false
deriving DecidableEq, Repr

/-- One end that output goes to and input comes from. -/
inductive Endpoint where
  | console
  | file (handle : Nat)
  | connection (id : Nat)
deriving DecidableEq, Repr

/-- The target that an endpoint belongs to. -/
def Endpoint.target : Endpoint → Target
  | .console => .std
  | .file _ => .file
  | .connection _ => .http

/-- The resources behind the targets. -/
structure Config where
  filePath : String := "io.txt"
  httpAddress : String := ":8080"
  /-- numeric hosts that no interface has -/
  foreignHosts : List String := []
deriving DecidableEq, Repr

structure World where
  console : Console := {}
  session : Option Debug.Session := none
  files : Files := {}
  traffic : Http.Traffic := {}
  config : Config := {}
  /-- the active target -/
  target : Target := .std
  /-- the live endpoints -/
  endpoints : List Endpoint := [.console]
  /-- the open listener -/
  listener : Option Nat := none
  /-- handles to be closed at the end -/
  opened : List Nat := []
deriving DecidableEq, Repr

namespace World

/-! ## The console -/

/-- The two output streams of the console. -/
inductive Stream where
  | out
  | err
deriving DecidableEq, Repr

/-- The name under which a stream is forwarded. -/
def Stream.name : Stream → Text
  | .out => Debug.stdOut
  | .err => Debug.stdErr

/-- Writes bytes to the console in one call. -/
def writeConsole (w : World) (stream : Stream) (bytes : List UInt8) : Except OsError World :=
  if w.console.forwarded then
    match w.session with
    | some session =>
      (session.writeThrough bytes stream.name).map fun (_, s) => { w with session := some s }
    | none => .ok w
  else
    match stream with
    | .out => (w.console.out.write bytes).map fun out =>
        { w with console := { w.console with out } }
    | .err => (w.console.err.write bytes).map fun err =>
        { w with console := { w.console with err } }

/-- Writes a text to the error stream of the console. -/
def writeError (w : World) (text : String) : Except OsError World :=
  w.writeConsole .err (Text.Utf8.encodeString text)

/-- Reads a byte from the console, zero at its end. -/
def readConsole (w : World) : Except OsError (UInt8 × World) :=
  (w.console.input.read).map fun (byte, input) =>
    (byte.getD 0, { w with console := { w.console with input } })

/-! ## Switching -/

/-- Closes the open listener, if any; no endpoint stays live. -/
def closeListener (w : World) : World × Except Stop Unit :=
  let cleared := { w with listener := none, endpoints := [] }
  match w.listener with
  | none => (cleared, .ok ())
  | some id =>
    match w.traffic.closeListener id with
    | .ok traffic => ({ cleared with traffic }, .ok ())
    | .error fault => (cleared, .error (.fault (.wait fault)))

def setConsole (w : World) : World := { w with target := .std, endpoints := [.console] }

def setTcp (w : World) : World := { w with target := .tcp, endpoints := [] }

/-- Opens the configured file at offset zero. -/
def openFile (w : World) : World × Except Stop Unit :=
  match w.files.openShared w.config.filePath with
  | .ok (files, handle) =>
    ({ w with files, opened := w.opened ++ [handle], target := .file, endpoints := [.file handle] },
      .ok ())
  | .error (.os error) => (w, .error (.failure (.os error)))
  | .error .embeddedNull => (w, .error (.failure .embeddedNull))

/-- Why an address cannot be bound. A port that fits no machine integer is refused first, then the
host, then the port. -/
def bindStop? (config : Config) (address : BindAddress) : Option Stop :=
  if address.port < -0x80000000 ∨ address.port ≥ 0x80000000 then some (.fault .portOutOfRange)
  else if !BindAddress.isNumeric address.host then some (.failure (.os .unknownHost))
  else if !address.portInRange then some (.fault .portOutOfRange)
  else if config.foreignHosts.contains address.host then some (.failure (.os .addressUnavailable))
  else none

/-- Opens a listener at the configured address. -/
def openNetwork (w : World) : World × Except Stop Unit :=
  match BindAddress.parse? w.config.httpAddress with
  | none => (w, .error (.failure (.badAddress w.config.httpAddress)))
  | some address =>
    match bindStop? w.config address with
    | some stop => (w, .error stop)
    | none =>
      match w.traffic.openListener (MediaType.ofResource w.config.filePath) with
      | .ok (traffic, id) =>
        ({ w with traffic, target := .http, endpoints := [], listener := some id }, .ok ())
      | .error fault => (w, .error (.fault (.wait fault)))

/-- Makes a target active where no listener is open. -/
def enter (w : World) (name : String) : World × Except Stop Unit :=
  match Target.ofName? name with
  | some .std => (w.setConsole, .ok ())
  | some .file => w.openFile
  | some .http => w.openNetwork
  | some .tcp => (w.setTcp, .ok ())
  | none => (w, .error (.failure (.unknownTarget name)))

/-- Makes a target active. The listener is closed before anything else when the network is left. -/
def switch (w : World) (name : String) : World × Except Stop Unit :=
  let (w, closed) := if w.target = .http then w.closeListener else (w, .ok ())
  match closed with
  | .error stop => (w, .error stop)
  | .ok () => w.enter name

/-! ## Data -/

/-- Takes over the connections that wait in the inbox of the open listener. -/
def drain (w : World) : World :=
  match w.listener with
  | none => w
  | some id =>
    let (traffic, fresh) := w.traffic.drain id
    { w with traffic, endpoints := w.endpoints ++ fresh.map .connection }

/-- Writes a byte to an endpoint. -/
def writeByte (w : World) (byte : UInt8) : Endpoint → Except OsError World
  | .console => w.writeConsole .out [byte]
  | .file handle => .ok { w with files := w.files.writeByte handle byte }
  | .connection id => .ok { w with traffic := w.traffic.write id byte }

/-- Writes a byte to endpoints one after the other, up to the first that fails. -/
def writeEach (w : World) (byte : UInt8) : List Endpoint → World × Except OsError Unit
  | [] => (w, .ok ())
  | endpoint :: rest =>
    match w.writeByte byte endpoint with
    | .ok w => writeEach w byte rest
    | .error error => (w, .error error)

/-- Writes a byte to every live endpoint. -/
def broadcast (w : World) (byte : UInt8) : World × Except OsError Unit :=
  let w := w.drain
  w.writeEach byte w.endpoints

/-- Reads a byte from the first live endpoint, or from the console; zero at the end. -/
def readLive (w : World) : World × Except OsError UInt8 :=
  match w.endpoints.head? with
  | some (.file handle) =>
    let (byte, files) := w.files.readByte handle
    ({ w with files }, .ok (byte.getD 0))
  | some (.connection id) =>
    let (byte, traffic) := w.traffic.read id
    ({ w with traffic }, .ok (byte.getD 0))
  | some .console | none =>
    match w.readConsole with
    | .ok (byte, w) => (w, .ok byte)
    | .error error => (w, .error error)

/-- Reads a byte, from a connection that waits in the inbox where no endpoint is live yet. -/
def read (w : World) : World × Except OsError UInt8 := w.drain.readLive

/-- Waits in rounds until a connection is attached: take over what is there, wait for the release,
take over again, and arm the group once more when the release belonged to an earlier connection. The
result says whether a connection is attached; if none is, the wait holds. -/
def awaitRounds : Nat → World → Except WaitFault (World × Bool)
  | 0, w => .ok (w, false)
  | rounds + 1, w => do
    let w := w.drain
    if !w.endpoints.isEmpty then return (w, true)
    if !(← w.traffic.waiters.isReleased Waiters.connection) then return (w, false)
    let w := w.drain
    if !w.endpoints.isEmpty then return (w, true)
    awaitRounds rounds { w with traffic := ← w.traffic.rearm }

/-- Waits until a connection is attached. A second round always finds the group armed. -/
def awaitConnection (w : World) : Except WaitFault (World × Bool) := awaitRounds 2 w

/-- Detaches every endpoint and completes the responses of those that are connections. -/
def finishCycle (w : World) : Except WaitFault World := do
  let detached := w.endpoints
  let traffic ← w.traffic.rearm
  let traffic := detached.foldl (fun t endpoint =>
    match endpoint with
    | .connection id => t.finish id
    | _ => t) traffic
  return { w with endpoints := [], traffic := ← traffic.settle }

/-! ## The end -/

/-- Closes the listener and then every handle that was opened. -/
def close (w : World) : World × Except Stop Unit :=
  let (w, closed) := w.closeListener
  match closed with
  | .error stop => (w, .error stop)
  | .ok () => ({ w with files := w.opened.foldl Files.close w.files, opened := [] }, .ok ())

/-- A client connects to the open listener, and its handler goes as far as it can. -/
def connect (w : World) (body : List UInt8) : Except WaitFault World :=
  match w.listener with
  | some id => do return { w with traffic := ← (w.traffic.arrive id body).settle }
  | none => .ok w

end World
end TapeLang

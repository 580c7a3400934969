import TapeLang.Debug.Wire
import TapeLang.Host.Stream

/-!
The program's side of a debug connection. A session is idle until the metadata was sent, and runs or
pauses until the exit message ends it. A client that goes away detaches the session: the program
runs on and never pauses again.
-/
namespace TapeLang.Debug

open Host (OsError Sink LineSource Line)

inductive SessionState where
  | idle
  | running
  | paused
  | finished
deriving DecidableEq, Repr

def SessionState.name : SessionState → String
  | .idle => "idle"
  | .running => "running"
  | .paused => "paused"
  | .finished => "finished"

structure Session where
  reader : LineSource := {}
  writer : Sink := {}
  state : SessionState := .idle
  detached : Bool := false
  /-- program output reaches the client already, so error reports need not be repeated -/
  mirrors : Bool := false
  /-- the transport is still to be closed -/
  closable : Bool := false
  /-- how often the transport was closed -/
  closings : Nat := 0
deriving DecidableEq, Repr

/-- What waiting for a command gives. -/
inductive Heard where
  | command (command : Command)
  /-- the client is gone -/
  | gone
  /-- nothing has arrived yet -/
  | waiting
  | failed (error : OsError)
  | refused (fault : LineFault)
deriving DecidableEq, Repr

namespace Session

/-- Whether pauses still reach a client. -/
def attached (s : Session) : Bool := !s.detached && s.state != .finished

/-- Sends a message. -/
def send (s : Session) (m : ServerMessage) : Except OsError Session :=
  match s.writer.write m.encode with
  | .ok writer => .ok { s with writer }
  | .error error => .error error

/-- Tells the client what is run. -/
def start (s : Session) (fileName filePath content : Text) : Except OsError Session :=
  (s.send (.metadata fileName filePath content)).map ({ · with state := .running })

/-- Shows where the program paused. The session is paused even if the message is lost. -/
def sendState (s : Session) (snapshot : Snapshot) : Session × Option OsError :=
  let s := { s with state := .paused }
  match s.send (.state snapshot) with
  | .ok s => (s, none)
  | .error error => (s, some error)

/-- White space of a line of bytes. -/
def isBlankByte (b : UInt8) : Bool := (0x9 ≤ b && b ≤ 0xD) || b == 0x20

/-- Whether a line says nothing. -/
def isBlankLine (line : Line) : Bool := line.all isBlankByte

/-- Waits for the next command, passing over blank lines. The bound is the number of lines to look
at. -/
def readCommandFrom : Nat → Session → Heard × Session
  | 0, s => (.waiting, s)
  | bound + 1, s =>
    match s.reader.read with
    | (.failed error, reader) => (.failed error, { s with reader })
    | (.waiting, reader) => (.waiting, { s with reader })
    | (.finished, reader) => (.gone, { s with reader, detached := true, state := .running })
    | (.line line, reader) =>
      let s := { s with reader }
      if isBlankLine line then readCommandFrom bound s
      else
        match Command.decode line with
        | .ok command => (.command command, s)
        | .error fault => (.refused fault, s)

/-- Waits for the next command. -/
def readCommand (s : Session) : Heard × Session :=
  readCommandFrom (s.reader.pending.length + 1) s

/-- Goes on after a pause. -/
def resume (s : Session) : Session :=
  if s.state = .paused then { s with state := .running } else s

/-- Forwards program output. After the end nothing is sent. -/
def writeStream (s : Session) (bytes : List UInt8) (name : Text) : Except OsError Session :=
  if s.state = .finished then .ok s else s.send (.ofBytes bytes name)

/-- Forwards an error report. -/
def reportError (s : Session) (text : String) : Except OsError Session :=
  if s.mirrors then .ok s else s.writeStream (Text.Utf8.encodeString text) stdErr

/-- Sends the exit message and closes the transport. Only the first call does anything, and a message
that is lost does not keep the transport open. -/
def close (s : Session) (code : Int) : Session :=
  if s.state = .finished then s
  else
    let s := match s.send (.exit code) with
      | .ok s => s
      | .error _ => s
    { s with state := .finished, closable := false,
             closings := s.closings + (if s.closable then 1 else 0) }

/-- Writes to a stream as to a file: an empty text is not sent. The result is the number of bytes. -/
def writeThrough (s : Session) (bytes : List UInt8) (name : Text) :
    Except OsError (Nat × Session) :=
  if bytes.isEmpty then .ok (0, s)
  else (s.writeStream bytes name).map fun s => (bytes.length, s)

end Session
end TapeLang.Debug

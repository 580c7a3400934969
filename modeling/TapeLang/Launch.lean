import TapeLang.Machine.Run

/-!
Running a program file. The file is read, and a debug client is waited for if one is asked for; it is
told what is run before the text is parsed, and the exit code at the very end, whatever way the run
ended. Under the protocol on the console's own streams the client is there from the start.
-/
namespace TapeLang

open Host (Files LineSource)
open Source (Block)

/-- How a debug client reaches a run. -/
inductive Debugger where
  | none
  /-- over the streams of the console -/
  | stdio
  /-- by a connection to an address; `free` is the port to be had where the address leaves it open -/
  | tcp (address : BindAddress) (free : Nat)
deriving DecidableEq, Repr

/-- A run of a program file. -/
inductive Launch where
  /-- the client has not connected yet -/
  | accepting (world : World) (content : Text)
  | running (machine : Machine)
  /-- what is left, and the exit code -/
  | finished (world : World) (result : Except Fault Int)

namespace Launch

/-! ## The file -/

/-- A text whose line breaks of every kind have become line feeds. -/
def unifyBreaks : Text → Text
  | [] => []
  | 0xD :: 0xA :: rest => 0xA :: unifyBreaks rest
  | n :: rest => (if n = 0xD then 0xA else n) :: unifyBreaks rest

/-- The text of a program file. -/
def content (files : Files) (path : String) : Except Stop Text :=
  match files.readAll path with
  | .error (.os error) => .error (.failure (.os error))
  | .error .embeddedNull => .error (.fault .embeddedNull)
  | .ok bytes =>
    match Text.Utf8.decode bytes with
    | .error fault => .error (.fault (.encoding fault))
    | .ok text => .ok (unifyBreaks text)

/-! ## The client -/

/-- The console's streams carry the protocol, and the program reads nothing. -/
def overConsole (w : World) : World :=
  { w with
    session := some
      { reader := .ofBytes w.console.input.pending w.console.input.budget
        writer := w.console.out
        mirrors := true }
    console := { w.console with out := {}, input := {}, forwarded := true } }

/-- A client is listened for, and the port is announced on the error stream. -/
def listen (w : World) (address : BindAddress) (free : Nat) : Except Stop World :=
  match World.bindStop? w.config address with
  | some stop => .error stop
  | none =>
    let port := if address.port = 0 then (free : Int) else address.port
    (w.writeError s!"{port}\n").mapError fun error => .failure (.os error)

/-- The world of a client that has connected and sent nothing yet. -/
def overNetwork (w : World) : World :=
  { w with session := some { reader := { complete := false }, closable := true } }

/-! ## The run -/

/-- A run that did not begin, with its reason on the error stream. -/
def refused (w : World) (text : String) : Launch :=
  match w.writeError text with
  | .ok w => .finished w (.ok 1)
  | .error error => .finished w (.error (.os error))

/-- The end of a run: the client is told the exit code. A fault counts as a failure. -/
def ended (w : World) (result : Except Fault Int) : Launch :=
  .finished { w with session := w.session.map (·.close (result.toOption.getD 1)) } result

/-- Tells the client what is run, if there is a client. -/
def introduce (w : World) (path : String) (content : Text) : Except Fault World :=
  match w.session with
  | none => .ok w
  | some session =>
    match session.start (.ofString (ProgramError.lastName path)) (.ofString path) content with
    | .ok session => .ok { w with session := some session }
    | .error error => .error (.os error)

/-- Reports a violation of the grammar, to the error stream and to the client. -/
def reportSyntax (w : World) (text : String) : World × Except Fault Int :=
  match w.writeError text with
  | .error error => (w, .error (.os error))
  | .ok w =>
    match w.session with
    | none => (w, .ok 1)
    | some session =>
      match session.reportError text with
      | .ok session => ({ w with session := some session }, .ok 1)
      | .error error => (w, .error (.os error))

/-- Begins to run a text, once the client is there. -/
def begin (path : String) (content : Text) (w : World) : Launch :=
  match introduce w path content with
  | .error fault => ended w (.error fault)
  | .ok w =>
    match Block.parse content.toString.toList with
    | .ok program => .running (.start program (.blank Tape.standardSize) w)
    | .error (.numeral fault) => ended w (.error (.numeral fault))
    | .error (.malformed fault position) =>
      let (w, result) := reportSyntax w (fault.located position path).report
      ended w result

/-- Starts to run the file at a path. -/
def start (path : String) (debugger : Debugger) (w : World) : Launch :=
  match content w.files path with
  | .error (.fault fault) => .finished w (.error fault)
  | .error (.failure failure) => refused w (failure.message ++ "\n")
  | .ok content =>
    match debugger with
    | .none => begin path content w
    | .stdio => begin path content (overConsole w)
    | .tcp address free =>
      match listen w address free with
      | .ok w => .accepting w content
      | .error (.failure failure) => refused w s!"debugger: {failure.message}\n"
      | .error (.fault fault) => .finished w (.error fault)

/-- The client connects. -/
def accept (path : String) : Launch → Launch
  | .accepting w content => begin path content (overNetwork w)
  | launch => launch

/-- One step of a run. -/
def step (path : String) : Launch → Launch
  | .running m =>
    match m.outcome? with
    | some outcome =>
      let (w, result) := m.conclude path outcome
      ended w result
    | none => .running m.step
  | launch => launch

/-- What a run leaves or has made of the world so far. -/
def world : Launch → World
  | .accepting w _ => w
  | .running m => m.world
  | .finished w _ => w

end Launch
end TapeLang

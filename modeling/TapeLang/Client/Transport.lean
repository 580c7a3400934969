import TapeLang.Debug.Session

/-!
The client's end of a debug connection. What arrives is gathered until a line is complete. A line gives
a message, which waits in a queue; a blank line and a line that violates the protocol are passed over,
and a line with a number that has no reading is the last one that is read. Behind the last message
comes the end of the connection, as often as it is asked for.
-/
namespace TapeLang.Client

open Debug (ServerMessage Session)
open Host (Line)

/-- What has become of the reader of a connection. -/
inductive Reading where
  | active
  /-- the connection has ended -/
  | ended
  /-- a line has no reading, and nothing after it is read -/
  | stuck
deriving DecidableEq, Repr

structure Transport where
  /-- the line that has begun to arrive -/
  begun : Line := []
  /-- the messages that nobody has taken yet -/
  queue : List ServerMessage := []
  reading : Reading := .active

namespace Transport

/-- Reads a line, which has lost its line break. -/
def readLine (t : Transport) (line : Line) : Transport :=
  if Session.isBlankLine line then t
  else
    match ServerMessage.decode line with
    | .ok message => { t with queue := t.queue ++ [message] }
    | .error (.protocol _) => t
    | .error (.number _) => { t with reading := .stuck }

/-- A byte arrives. -/
def receive (t : Transport) (byte : UInt8) : Transport :=
  if t.reading = .active then
    if byte = 0xA then { t with begun := [] }.readLine t.begun
    else { t with begun := t.begun ++ [byte] }
  else t

/-- The other end has closed the connection. -/
def finish (t : Transport) : Transport :=
  if t.reading = .active then { t with reading := .ended } else t

/-- Whether anything can be sent. -/
def connected (t : Transport) : Bool := t.reading != .ended

end Transport
end TapeLang.Client

import TapeLang.Client.Report

/-!
A debugger at work on its commands, one at a time. The first command that needs the program connects and
waits for its first halt; a command that lets the program go on is sent, and then waits for the next
halt. A wait ends with a halt, with the connection, or when its time is up, and none of these need come.
What the outside makes of an attempt to connect or to send is not the debugger's to choose, and any
number of bytes may arrive at any time.

What happens is recorded in a journal, oldest first: what is sent, what is heard, and what is shown.
Nothing reads the journal but those who look at what has been written.
-/
namespace TapeLang

open Client (Control Form Halt Reply Report Shown Task Transport Verb View)

namespace Client.Control

/-- The number that a command is not sent for. -/
def outOfRange? : Control → Option Int
  | .move cell => (cellProblem? cell).map fun _ => cell
  | .assign cell value =>
    ((cellProblem? cell).map fun _ => cell).or ((valueProblem? value).map fun _ => value)
  | _ => none

/-- Whether a number has too many digits for a message. -/
def isTooLong (n : Int) : Bool :=
  decide (Text.Numeral.digitLimit < (Nat.toDigits 10 n.natAbs).length)

end Client.Control

namespace Shell

/-- How long a halt is waited for. -/
inductive Patience where
  | endless
  | limited
  /-- less than no time, for which no wait begins -/
  | negative
  /-- longer than a wait can last -/
  | excessive (reason : String)
deriving DecidableEq, Repr

/-- What comes of an attempt to connect. -/
inductive Dialing where
  | answered
  | refused (reason : String)
  /-- there is no such address -/
  | impossible (reason : String)
deriving DecidableEq, Repr

/-- What comes of an attempt to send. -/
inductive Outgoing where
  | works
  | breaks (reason : String)
  /-- an earlier attempt has failed -/
  | cut
deriving DecidableEq, Repr

/-- What no command is prepared for. -/
inductive Mishap where
  | unfilled
  | unwritable
  | negativeWait
  | excessiveWait (reason : String)
  | undialable (reason : String)
deriving DecidableEq, Repr

def Mishap.message : Mishap → String
  | .unfilled => "not enough values to unpack (expected 1, got 0)"
  | .unwritable =>
    s!"Exceeds the limit ({Text.Numeral.digitLimit} digits) for integer string conversion; " ++
      "use sys.set_int_max_str_digits() to increase the limit"
  | .negativeWait => "'timeout' must be a non-negative number"
  | .excessiveWait reason | .undialable reason => reason

/-- What has become of a command. -/
inductive Outcome where
  | returned (code : Int)
  /-- the debugger is to end -/
  | left
  | raised (mishap : Mishap)
deriving DecidableEq, Repr

inductive Act where
  | sends (control : Control)
  | hears (halt : Halt)
  /-- the connection is found to have ended, or is given up -/
  | loses
  /-- a wait is given up -/
  | tires
  /-- output of the program is shown, given as streams and texts -/
  | forwards (output : List (Text × Text))
  | reports (report : Report)

/-- What is written of what happens. -/
def Act.shown (form : Form) : Act → Shown
  | .forwards output => .ofOutput form output
  | .reports report => report.shown form
  | _ => {}

end Shell

open Shell (Act Dialing Mishap Outcome Outgoing Patience)

structure Shell where
  form : Form := .text
  patience : Patience := .endless
  client : Client := {}
  /-- whether the first halt is waited for in order to show it -/
  looking : Bool := false
  dialing : Dialing := .answered
  outgoing : Outgoing := .works
  /-- what has become of the last command, once it is done -/
  outcome : Option Outcome := none
  journal : List Act := []

namespace Shell

def record (s : Shell) (act : Act) : Shell := { s with journal := s.journal ++ [act] }

/-- All that has been written. -/
def shown (s : Shell) : Shown where
  out := s.journal.flatMap fun act => (act.shown s.form).out
  err := s.journal.flatMap fun act => (act.shown s.form).err

/-- Whether a command is at work. -/
def busy (s : Shell) : Bool := s.looking || s.client.activity != .idle

def transport (s : Shell) : Option Transport := s.client.context.transport

def setTransport (s : Shell) (transport : Option Transport) : Shell :=
  { s with client := { s.client with context := { s.client.context with transport } } }

/-- Whether the connection is there. -/
def connected (s : Shell) : Bool := s.outgoing != .cut && s.transport.any (·.connected)

/-- What is told of a connection that could not be made. -/
def unconnected (reason : String) : String := s!"connect failed: {reason}"

/-- What is told of a wait whose time is up. -/
def timedOut : String := "timed out waiting for the interpreter"

/-! ## The end of a command -/

def finish (s : Shell) (outcome : Outcome) : Shell := { s with outcome := some outcome }

/-- A command that ends with a report. -/
def report (s : Shell) (report : Report) : Shell :=
  (s.record (.reports report)).finish (.returned report.status)

/-- A command that came to nothing. -/
def fail (s : Shell) (control : Control) (reason : String) : Shell :=
  { s with client := s.client.fail control reason }.report (.reply (.failed control.operation reason))

/-- All output is shown. -/
def forward (s : Shell) : Shell :=
  let (output, context) := s.client.context.takeOutput
  { s with client := { s.client with context } }.record (.forwards output)

/-- A command that was answered. -/
def answer (s : Shell) (reply : Reply) : Shell :=
  let t := s.forward
  { t with client := t.client.answered reply }.report (.reply reply)

/-- Shows where the program is, as far as that is known. -/
def showView (s : Shell) : Shell :=
  let t := { s with looking := false }.forward
  t.report (.view t.client.context.view)

/-- A command that goes wrong. -/
def raise (s : Shell) (mishap : Mishap) : Shell :=
  { s with looking := false, client := { s.client with activity := .idle } }.finish (.raised mishap)

/-! ## The course of a command -/

/-- A wait begins. -/
def wait (s : Shell) : Shell :=
  if s.patience = .negative then (s.record .tires).raise .negativeWait else s

/-- Sends a command. -/
def send (s : Shell) (control : Control) : Shell :=
  match s.client.context.exitCode with
  | some code => s.fail control s!"program already exited with code {code}"
  | none =>
    if s.connected then
      match s.outgoing with
      | .breaks reason =>
        { s with outgoing := .cut }.record .loses |>.fail control s!"send failed: {reason}"
      | _ => { s with client := s.client.send control }.record (.sends control) |>.wait
    else (s.record .loses).fail control "not connected"

/-- Undertakes a command that lets the program go on. -/
def undertake (s : Shell) (control : Control) : Shell :=
  if control.outOfRange?.any Control.isTooLong then s.raise .unwritable
  else
    match control.problem? with
    | some problem =>
      { s with client := s.client.undertake control }.report (.reply (.refused problem))
    | none =>
      match s.transport, s.dialing with
      | some _, _ => s.send control
      | none, .answered =>
        { s with outgoing := .works, client := s.client.undertake control }.wait
      | none, .refused reason => s.fail control (unconnected reason)
      | none, .impossible reason => s.raise (.undialable reason)

/-- Undertakes to show where the program is. -/
def look (s : Shell) : Shell :=
  match s.transport, s.dialing with
  | some _, _ => s.showView
  | none, .answered => { s with outgoing := .works, looking := true }.setTransport (some {}) |>.wait
  | none, .refused reason => s.report (.view (.failed (unconnected reason)))
  | none, .impossible reason => s.raise (.undialable reason)

/-- Gives the connection up and leaves. -/
def leave (s : Shell) : Shell :=
  let told :=
    if s.connected && s.client.context.exitCode.isNone then s.record (.reports .detaching) else s
  let left := if s.transport.isSome then (told.record .loses).setTransport none else told
  left.finish .left

/-- Begins what a command asks for. -/
def perform (s : Shell) : Task → Shell
  | .help => s.report .help
  | .look => s.look
  | .control control => s.undertake control
  | .leave => s.leave

/-- Begins a command. -/
def begin (s : Shell) (verb : Verb) (arguments : List Text) : Shell :=
  match verb.task arguments with
  | .ok task => s.perform task
  | .error .crowded => s.report (.crowded verb)
  | .error (.misused misuse) => s.report (.misused verb misuse)
  | .error .unfilled => s.raise .unfilled

/-! ## What happens while a command waits -/

/-- Goes on after a wait. -/
def goOn (s : Shell) (reply : Reply) : Shell :=
  if s.looking then s.showView
  else
    match s.client.activity with
    | .idle => s
    | .connecting control => s.send control
    | .waiting _ => s.answer reply

/-- Takes the next message, if a command waits for one. -/
def take (s : Shell) : Shell :=
  if s.busy then
    let (context, awaited) := s.client.context.await
    let t := { s with client := { s.client with context } }
    match awaited with
    | .waiting => t
    | .gone => (t.record .loses).goOn .disconnected
    | .halt halt => (t.record (.hears halt)).goOn (.ofHalt halt)
  else s

/-- Whether there is nothing to be taken. -/
def starved (s : Shell) : Bool :=
  s.transport.all fun transport => transport.queue.isEmpty && transport.reading != .ended

/-- Ends a wait without a halt. -/
def giveUp (s : Shell) : Shell :=
  if s.looking then { s with looking := false }.report (.view (.failed timedOut))
  else
    match s.client.activity with
    | .idle => s
    | .connecting control | .waiting control => s.fail control timedOut

/-- The time of a wait is up. -/
def elapse (s : Shell) : Shell :=
  if s.busy && s.starved then
    match s.patience with
    | .endless | .negative => s
    | .limited => (s.record .tires).giveUp
    | .excessive reason => (s.record .tires).raise (.excessiveWait reason)
  else s

/-- What the outside does. -/
inductive Event where
  | arrive (bytes : List UInt8)
  /-- the other end closes the connection -/
  | close
  /-- the command at work takes the next message -/
  | take
  /-- the time of a wait is up -/
  | elapse
  /-- decides on the attempts to connect from now on -/
  | dial (dialing : Dialing)
  /-- decides that the next attempt to send fails -/
  | hamper (reason : String)
deriving DecidableEq, Repr

def happen (s : Shell) : Event → Shell
  | .arrive bytes => s.setTransport (s.transport.map fun t => bytes.foldl Transport.receive t)
  | .close => s.setTransport (s.transport.map Transport.finish)
  | .take => s.take
  | .elapse => s.elapse
  | .dial dialing => { s with dialing }
  | .hamper reason => if s.outgoing = .cut then s else { s with outgoing := .breaks reason }

/-! ## Undisturbed commands

While nothing outside fails, a debugger at its commands is a debugger as it was before, with a journal. -/

variable {s : Shell}

theorem wait_of_patient (patient : s.patience ≠ .negative) : s.wait = s := if_neg patient

/-- A connected debugger sends a command and waits for the halt after it. -/
theorem send_connected (going : s.client.context.exitCode = none) (connected : s.connected = true)
    (control : Control) :
    s.client.send control =
      { s.client with
        activity := .waiting control, sent := s.client.sent ++ control.command.encode } := by
  simp only [Shell.connected, Shell.transport, Bool.and_eq_true, Option.any_eq_true] at connected
  obtain ⟨-, transport, there, reads⟩ := connected
  simp only [Client.send, going, there, reads, ↓reduceIte]

theorem send_away (going : s.client.context.exitCode = none) (works : s.outgoing = .works)
    (away : s.connected = false) (control : Control) :
    s.client.send control = s.client.fail control "not connected" := by
  simp only [Client.send, going]
  cases there : s.client.context.transport with
  | none => rfl
  | some transport =>
    have unread : transport.connected = false := by
      simpa [Shell.connected, Shell.transport, works, there] using away
    simp only [unread, Bool.false_eq_true, ↓reduceIte]

theorem client_send (works : s.outgoing = .works) (patient : s.patience ≠ .negative) (control : Control) :
    (s.send control).client = s.client.send control := by
  unfold Shell.send
  cases going : s.client.context.exitCode with
  | some code => simp only [Client.send, going]; rfl
  | none =>
    cases connected : s.connected with
    | true =>
      simp only [works, ↓reduceIte]
      rw [wait_of_patient (by exact patient)]
      rfl
    | false => rw [send_away going works connected]; rfl

theorem client_undertake (works : s.outgoing = .works) (patient : s.patience ≠ .negative)
    (answered : s.dialing = .answered) {control : Control}
    (writable : control.outOfRange?.any Control.isTooLong = false) :
    (s.undertake control).client = s.client.undertake control := by
  unfold Shell.undertake
  rw [if_neg (by simp [writable])]
  cases accepted : control.problem? with
  | some problem => rfl
  | none =>
    cases there : s.transport with
    | some transport =>
      refine (client_send works patient control).trans ?_
      simp only [Shell.transport] at there
      simp only [Client.undertake, accepted, there]
    | none =>
      simp only [answered]
      rw [wait_of_patient (by exact patient)]

theorem client_goOn (apart : s.looking = false) (works : s.outgoing = .works)
    (patient : s.patience ≠ .negative) (reply : Reply) :
    (s.goOn reply).client =
      match s.client.activity with
      | .idle => s.client
      | .connecting control => s.client.send control
      | .waiting _ => s.client.answered reply := by
  rw [goOn, if_neg (by simp [apart])]
  cases s.client.activity with
  | connecting control => exact client_send works patient control
  | idle | waiting => rfl

/-- Taking a message, where no view is waited for. -/
theorem client_take (apart : s.looking = false) (works : s.outgoing = .works)
    (patient : s.patience ≠ .negative) : s.take.client = s.client.take := by
  unfold Shell.take Client.take
  cases activity : s.client.activity with
  | idle => simp [busy, apart, activity]
  | connecting | waiting =>
    rw [if_pos (by simp [busy, activity])]
    generalize s.client.context.await = result
    obtain ⟨context, awaited⟩ := result
    cases awaited with
    | waiting => simp only [activity]
    | gone | halt =>
      refine (client_goOn (by exact apart) (by exact works) (by exact patient) _).trans ?_
      simp only [record, activity]

end Shell
end TapeLang

import TapeLang.Proofs.Outputs
import TapeLang.Proofs.Routes

/-!
Where the console comes into a run. Away from the network the live endpoints are those of the active
target (`World.Wired`), so a step calls on the console in two cases only: at an output while the console
is the active target, and at an input while no file is (`Machine.call?`). Every other step is the same on
any console (`Machine.AtConsole.withConsole_step`), and a step that calls on it goes by what the console
answers (`Machine.AtConsole.step_call`).
-/
namespace TapeLang

open Host (OsError)
open Source (Action Block Header Statement Target)

/-! ## Consoles -/

namespace Console

/-- The calls on a console. -/
inductive Call where
  | write
  | read
deriving DecidableEq, Repr

/-- The call that an action makes while a target is active. -/
def Call.of? : Action → Target → Option Call
  | .output, .std => some .write
  | .input, .std | .input, .tcp => some .read
  | _, _ => none

/-- Output calls on the console while it is the active target, and input while no file is. -/
theorem Call.of?_eq_some_iff {action : Action} {target : Target} {call : Call} :
    of? action target = some call ↔
      call = .write ∧ action = .output ∧ target = .std ∨
        call = .read ∧ action = .input ∧ (target = .std ∨ target = .tcp) := by
  cases action <;> cases target <;> simp [of?, eq_comm]

/-- A call on a console with streams of its own, where the current cell holds a value: the console after
it, and what the cell holds then. -/
def answer (c : Console) (value : UInt8) : Call → Except OsError (Console × UInt8)
  | .write => (c.out.write [value]).map fun out => ({ c with out }, value)
  | .read => (c.input.read).map fun (byte, input) => ({ c with input }, byte.getD 0)

/-- A console that never breaks. -/
structure Sound (c : Console) : Prop where
  out : c.out.budget = none
  err : c.err.budget = none
  input : c.input.budget = none

/-- A sound console serves every call. -/
theorem Sound.answer {c : Console} (sound : c.Sound) (value : UInt8) (call : Call) :
    ∃ d byte, c.answer value call = .ok (d, byte) ∧ d.Sound := by
  cases call with
  | write =>
    refine ⟨{ c with out := ⟨[value] :: c.out.chunks, none⟩ }, value, ?_, ⟨rfl, sound.err, sound.input⟩⟩
    simp [Console.answer, Host.Sink.write, sound.out, Host.spend, Except.map]
  | read =>
    refine ⟨{ c with input := ⟨c.input.pending.tail, c.input.calls + 1, none⟩ },
      c.input.pending.head?.getD 0, ?_, ⟨sound.out, sound.err, rfl⟩⟩
    simp [Console.answer, Host.Source.read, sound.input, Host.spend, Except.map]

/-- An answer leaves the error stream and the way to the console alone. -/
theorem answer_keeps {c d : Console} {value byte : UInt8} {call : Call}
    (answered : c.answer value call = .ok (d, byte)) : d.err = c.err ∧ d.forwarded = c.forwarded := by
  cases call <;>
    (obtain ⟨_, -, same⟩ := ok_of_map_ok answered
     obtain ⟨rfl, -⟩ := Prod.mk.inj same
     exact ⟨rfl, rfl⟩)

end Console

namespace World

variable {w v : World}

/-- The world before a run: bytes to be read from the console, and nothing written or opened yet. -/
def initial (input : List UInt8) (files : Host.Files) (config : Config) : World :=
  { console := { input := { pending := input } }, files, config }

/-- The world with another console. -/
def withConsole (w : World) (console : Console) : World := { w with console }

/-- Away from the network the live endpoints are those of the active target. No listener is open. -/
inductive Wired (w : World) : Prop where
  | std (unopened : w.listener = none) (target : w.target = .std) (live : w.endpoints = [.console])
  | file {handle : Nat} (unopened : w.listener = none) (target : w.target = .file)
      (live : w.endpoints = [.file handle])
  | tcp (unopened : w.listener = none) (target : w.target = .tcp) (live : w.endpoints = [])

theorem Wired.unopened (wired : w.Wired) : w.listener = none := by
  cases wired <;> assumption

theorem Wired.away (wired : w.Wired) : w.target ≠ .http := by
  rcases wired with ⟨-, target, -⟩ | ⟨-, target, -⟩ | ⟨-, target, -⟩ <;> simp [target]

theorem Wired.of_same (wired : w.Wired) (listener : v.listener = w.listener)
    (target : v.target = w.target) (endpoints : v.endpoints = w.endpoints) : v.Wired := by
  rcases wired with ⟨unopened, kind, live⟩ | ⟨unopened, kind, live⟩ | ⟨unopened, kind, live⟩
  · exact .std (listener.trans unopened) (target.trans kind) (endpoints.trans live)
  · exact .file (listener.trans unopened) (target.trans kind) (endpoints.trans live)
  · exact .tcp (listener.trans unopened) (target.trans kind) (endpoints.trans live)

/-! ### What output and input do -/

theorem broadcast_std (unopened : w.listener = none) (live : w.endpoints = [.console]) (byte : UInt8) :
    w.broadcast byte = match w.writeConsole .out [byte] with
      | .ok v => (v, .ok ())
      | .error error => (w, .error error) := by
  have each : w.broadcast byte = w.writeEach byte [.console] := by
    simp only [broadcast, drain_unopened unopened, live]
  rw [each]
  cases written : w.writeConsole .out [byte] with
  | ok v => simp only [writeEach, writeByte, written]
  | error error => simp only [writeEach, writeByte, written]

theorem broadcast_file {handle : Nat} (unopened : w.listener = none)
    (live : w.endpoints = [.file handle]) (byte : UInt8) :
    w.broadcast byte = ({ w with files := w.files.writeByte handle byte }, .ok ()) := by
  simp only [broadcast, drain_unopened unopened, live, writeEach, writeByte]

theorem broadcast_tcp (unopened : w.listener = none) (live : w.endpoints = []) (byte : UInt8) :
    w.broadcast byte = (w, .ok ()) := by
  simp only [broadcast, drain_unopened unopened, live, writeEach]

theorem read_file {handle : Nat} (unopened : w.listener = none) (live : w.endpoints = [.file handle]) :
    w.read = ({ w with files := (w.files.readByte handle).2 },
      .ok ((w.files.readByte handle).1.getD 0)) := by
  simp only [read, drain_unopened unopened, readLive, live, List.head?_cons]

/-- Where no file and no connection is live, input comes from the console. -/
theorem readLive_console (live : w.endpoints = [.console] ∨ w.endpoints = []) :
    w.readLive = match w.readConsole with
      | .ok (byte, v) => (v, .ok byte)
      | .error error => (w, .error error) := by
  unfold readLive
  split
  next file => rcases live with live | live <;> simp [live] at file
  next connection => rcases live with live | live <;> simp [live] at connection
  · rfl
  · rfl

theorem read_console {byte : Option UInt8} {input : Host.Source} (unopened : w.listener = none)
    (live : w.endpoints = [.console] ∨ w.endpoints = [])
    (found : w.console.input.read = .ok (byte, input)) :
    w.read = (w.withConsole { w.console with input }, .ok (byte.getD 0)) := by
  rw [read, drain_unopened unopened, readLive_console live, readConsole, found]
  rfl

theorem read_console_error {error : OsError} (unopened : w.listener = none)
    (live : w.endpoints = [.console] ∨ w.endpoints = [])
    (failed : w.console.input.read = .error error) : w.read = (w, .error error) := by
  rw [read, drain_unopened unopened, readLive_console live, readConsole, failed]
  rfl

theorem Wired.broadcast (wired : w.Wired) (byte : UInt8) : (w.broadcast byte).1.Wired := by
  rcases wired with ⟨unopened, target, live⟩ | ⟨unopened, target, live⟩ | ⟨unopened, target, live⟩
  · rw [broadcast_std unopened live]
    cases written : w.writeConsole .out [byte] with
    | ok v =>
      obtain ⟨console, session, rfl⟩ := writeConsole_world written
      exact .std unopened target live
    | error => exact .std unopened target live
  · rw [broadcast_file unopened live]
    exact .file unopened target live
  · rw [broadcast_tcp unopened live]
    exact .tcp unopened target live

theorem Wired.read (wired : w.Wired) : w.read.1.Wired := by
  obtain ⟨-, -, listener, target, endpoints⟩ := read_routes wired.unopened
  exact wired.of_same listener target endpoints

/-- A switch to another target than the network, where it goes through, makes the endpoints of that
target the live ones. -/
theorem Wired.switch (wired : w.Wired) {name : String} (other : name ≠ Target.http.name) :
    (w.switch name).1.Wired := by
  simp only [World.switch, enter, wired.away, ↓reduceIte]
  split
  · exact .std wired.unopened rfl rfl
  · unfold openFile
    split
    · exact .file wired.unopened rfl rfl
    · exact wired
    · exact wired
  next found => exact absurd (Target.ofName?_eq_some_iff.mp found) other
  · exact .tcp wired.unopened rfl rfl
  · exact wired

/-- A switch to another target than the network does not look at the console. -/
theorem withConsole_switch (away : w.target ≠ .http) {name : String} (other : name ≠ Target.http.name)
    (console : Console) : (w.withConsole console).switch name =
      ((w.switch name).1.withConsole console, (w.switch name).2) := by
  have away' : (w.withConsole console).target ≠ .http := away
  have same : (w.withConsole console).files = w.files ∧ (w.withConsole console).config = w.config :=
    ⟨rfl, rfl⟩
  simp only [World.switch, enter, away, away', ↓reduceIte]
  cases found : Target.ofName? name with
  | none => rfl
  | some target =>
    cases target with
    | std | tcp => rfl
    | http => exact absurd (Target.ofName?_eq_some_iff.mp found) other
    | file =>
      simp only [openFile, same.1, same.2]
      cases w.files.openShared w.config.filePath with
      | ok opened => rfl
      | error error => cases error <;> rfl

end World

/-- Writing what is there changes nothing. -/
theorem Tape.write_current (t : Tape) : t.write t.current = t := by
  have cells : t.cells.setIfInBounds t.cursor (t.cells.getD t.cursor 0) = t.cells := by
    apply Array.ext
    · simp
    · intro k _ inside
      rw [Array.getElem_setIfInBounds inside]
      split
      next same => simp [same, Array.getD, inside]
      next => rfl
  rw [write, current, cells]

/-! ## Machines -/

namespace Machine

variable {m : Machine} {console : Console} {head : Header} {action : Action} {next : Block}

/-- The machine with another console. -/
def withConsole (m : Machine) (console : Console) : Machine :=
  { m with world := m.world.withConsole console }

/-- A run away from the network, on a console with streams of its own. -/
structure AtConsole (m : Machine) : Prop where
  offline : m.Offline
  wired : m.world.Wired
  own : m.world.console.forwarded = false

theorem AtConsole.withConsole (seated : m.AtConsole) (own : console.forwarded = false) :
    (m.withConsole console).AtConsole where
  offline := ⟨seated.offline.away, seated.offline.program⟩
  wired := seated.wired.of_same rfl rfl rfl
  own := own

/-- The run of a program with an input on the console, and perhaps with a client. -/
def runOn (program : Block) (files : Host.Files) (config : Config) (session : Option Debug.Session)
    (input : List UInt8) : Machine :=
  start program (.blank Tape.standardSize) { World.initial input files config with session }

theorem atConsole_runOn {program : Block} (offline : program.isOffline = true) (files : Host.Files)
    (config : Config) (session : Option Debug.Session) (input : List UInt8) :
    (runOn program files config session input).AtConsole where
  offline := offline_start offline _ (by simp [World.initial])
  wired := .std rfl rfl rfl
  own := rfl

/-- The call on the console that the next step makes, and the statement that makes it. -/
def call? (m : Machine) : Option (Console.Call × Header) :=
  match m.phase, m.frame.rest with
  | .ready, .act head action _ =>
    if m.tape.hasCell then (Console.Call.of? action m.world.target).map (·, head) else none
  | _, _ => none

/-- What follows a call at a statement, on a console that stays as it is if the call fails. -/
def answered (m : Machine) (head : Header) (next : Block) (console : Console) :
    Except OsError (Console × UInt8) → Machine
  | .ok (after, byte) => { m.withConsole after with tape := m.tape.write byte }.advance next
  | .error error => (m.withConsole console).halt (.failed (.os error) head.position)

/-! ### Steps that make no call -/

theorem withConsole_showState (m : Machine) (console : Console) (s : Statement) :
    (m.withConsole console).showState s = (m.showState s).withConsole console := by
  have client : (m.withConsole console).world.session = m.world.session := rfl
  have shown : (m.withConsole console).snapshot s = m.snapshot s := rfl
  unfold showState withSession
  rw [client, shown]
  cases m.world.session with
  | none => rfl
  | some session =>
    dsimp only
    cases (session.sendState (m.snapshot s)).2 <;> rfl

theorem withConsole_look (m : Machine) (console : Console) (s : Statement) :
    (m.withConsole console).look s = (m.look s).withConsole console := by
  have attached : (m.withConsole console).attached = m.attached := rfl
  have same : (m.withConsole console).steering = m.steering ∧ (m.withConsole console).site = m.site :=
    ⟨rfl, rfl⟩
  unfold look
  rw [attached, same.1, same.2]
  dsimp only
  split
  · split
    · exact withConsole_showState { m with
        steering := (m.steering.shouldPause m.site s.head.marked).2.entered m.site } console s
    · rfl
  · rfl

theorem withConsole_stepOut (m : Machine) (console : Console) :
    (m.withConsole console).stepOut = m.stepOut.withConsole console := by
  have outer : (m.withConsole console).outer = m.outer := rfl
  unfold stepOut
  simp only [proceed, outer]
  cases m.outer with
  | nil => rfl
  | cons parent outer =>
    dsimp only
    cases parent.rest.uncons? <;> rfl

theorem withConsole_answer (m : Machine) (console : Console) (s : Statement) (c : Debug.Command) :
    (m.withConsole console).answer s c = (m.answer s c).withConsole console := by
  have tape : (m.withConsole console).tape = m.tape := rfl
  unfold answer
  rw [tape]
  split
  · rfl
  · rfl
  · rfl
  · cases c.cell.map m.tape.seek with
    | none => rfl
    | some sought => cases sought <;> rfl
  · rfl
  · exact withConsole_stepOut m console
  · cases c.cell with
    | none => rfl
    | some cell =>
      cases c.value with
      | none => rfl
      | some value =>
        dsimp only
        cases m.tape.store cell value with
        | error => rfl
        | ok tape => exact withConsole_showState { m with tape } console s

theorem withConsole_hear (m : Machine) (console : Console) (s : Statement) :
    (m.withConsole console).hear s = (m.hear s).withConsole console := by
  have client : (m.withConsole console).world.session = m.world.session := rfl
  unfold hear withSession
  rw [client]
  cases m.world.session with
  | none => rfl
  | some session =>
    dsimp only
    cases session.readCommand.1 with
    | waiting | gone | failed => rfl
    | refused fault => cases fault <;> rfl
    | command command =>
      exact withConsole_answer { m with world := { m.world with session := some session.readCommand.2 } }
        console s command

theorem withConsole_endBlock (m : Machine) (console : Console) :
    (m.withConsole console).endBlock = m.endBlock.withConsole console := by
  have same : (m.withConsole console).outer = m.outer ∧ (m.withConsole console).tape = m.tape :=
    ⟨rfl, rfl⟩
  unfold endBlock
  simp only [same.1, same.2]
  cases m.outer with
  | nil => rfl
  | cons parent outer =>
    dsimp only
    split
    · rfl
    · split
      · split <;> rfl
      · rfl

/-- An action that makes no call does not look at the console. -/
theorem AtConsole.withConsole_perform (seated : m.AtConsole)
    (rest : m.frame.rest = .act head action next)
    (quiet : Console.Call.of? action m.world.target = none) (console : Console) :
    (m.withConsole console).perform head action next =
      (m.perform head action next).withConsole console := by
  have world : (m.withConsole console).world = m.world.withConsole console := rfl
  have tape : (m.withConsole console).tape = m.tape := rfl
  have wired := seated.wired
  have away : (m.withConsole console).world.target ≠ .http := wired.away
  cases action with
  | increment | decrement | clear | push | none => rfl
  | moveRight | moveLeft =>
    simp only [perform, tape]
    split <;> rfl
  | output =>
    simp only [perform, output_away wired.away, output_away away, withWorld_eq, world, tape]
    rcases wired with ⟨-, target, -⟩ | ⟨unopened, -, live⟩ | ⟨unopened, -, live⟩
    · simp [Console.Call.of?, target] at quiet
    · rw [World.broadcast_file unopened live, World.broadcast_file (by exact unopened) (by exact live)]
      rfl
    · rw [World.broadcast_tcp unopened live, World.broadcast_tcp (by exact unopened) (by exact live)]
      rfl
  | input =>
    simp only [perform, input, withWorld_eq, world]
    rcases wired with ⟨-, target, -⟩ | ⟨unopened, -, live⟩ | ⟨-, target, -⟩
    · simp [Console.Call.of?, target] at quiet
    · rw [World.read_file unopened live, World.read_file (by exact unopened) (by exact live)]
      rfl
    · simp [Console.Call.of?, target] at quiet
  | switch name =>
    have other : name ≠ Target.http.name := bne_iff_ne.mp (seated.offline.allowed rest)
    simp only [perform, withWorld_eq, world, World.withConsole_switch wired.away other]
    cases (m.world.switch name).2 with
    | ok => rfl
    | error reason => cases reason <;> rfl

/-- A step that makes no call does not look at the console. -/
theorem AtConsole.withConsole_step (seated : m.AtConsole) (quiet : m.call? = none)
    (console : Console) : (m.withConsole console).step = m.step.withConsole console := by
  have same : (m.withConsole console).phase = m.phase ∧ (m.withConsole console).frame = m.frame ∧
      (m.withConsole console).tape = m.tape := ⟨rfl, rfl, rfl⟩
  unfold step
  rw [same.1, same.2.1]
  cases phase : m.phase with
  | halted outcome => rfl
  | arriving =>
    dsimp only
    cases m.frame.rest.uncons? with
    | none => exact withConsole_endBlock m console
    | some found => exact withConsole_look m console found.1
  | paused =>
    dsimp only
    cases m.frame.rest.uncons? with
    | none => rfl
    | some found => exact withConsole_hear m console found.1
  | ready =>
    dsimp only
    unfold act
    rw [same.2.1, same.2.2]
    cases rest : m.frame.rest with
    | nil => rfl
    | loop head body next =>
      dsimp only
      split
      · rfl
      · split <;> rfl
    | act head action next =>
      dsimp only
      by_cases cellless : (usesCell action && !m.tape.hasCell) = true
      · rw [if_pos cellless, if_pos cellless]
        rfl
      · rw [if_neg cellless, if_neg cellless]
        refine seated.withConsole_perform rest ?_ console
        cases calls : Console.Call.of? action m.world.target with
        | none => rfl
        | some call =>
          -- an action that calls needs a cell, and there is one
          have cell : m.tape.hasCell = true := by
            cases action <;> simp [Console.Call.of?] at calls <;> simpa [usesCell] using cellless
          simp [call?, phase, rest, cell, calls] at quiet

/-! ### Steps that make a call -/

theorem call?_eq_some_iff {call : Console.Call} :
    m.call? = some (call, head) ↔ ∃ action next, m.phase = .ready ∧
      m.frame.rest = .act head action next ∧ m.tape.hasCell = true ∧
      Console.Call.of? action m.world.target = some call := by
  constructor
  · intro calls
    unfold call? at calls
    split at calls
    next head' action next ready rest =>
      split at calls
      next cell =>
        obtain ⟨call', found, same⟩ := Option.map_eq_some_iff.mp calls
        obtain ⟨rfl, rfl⟩ := Prod.mk.inj same
        exact ⟨action, next, ready, rest, cell, found⟩
      next => simp at calls
    next => simp at calls
  · rintro ⟨action, next, ready, rest, cell, found⟩
    simp [call?, ready, rest, cell, found]

/-- An output on a console with streams of its own leaves the cell as it is. -/
theorem output_answered (wired : m.world.Wired) (own : m.world.console.forwarded = false)
    (target : m.world.target = .std) (head : Header) (next : Block) :
    m.output head next =
      m.answered head next m.world.console (m.world.console.answer m.tape.current .write) := by
  rcases wired with ⟨unopened, -, live⟩ | ⟨-, file, -⟩ | ⟨-, tcp, -⟩
  · have away : m.world.target ≠ .http := by simp [target]
    have written : m.world.writeConsole .out [m.tape.current] =
        (m.world.console.out.write [m.tape.current]).map fun out =>
          m.world.withConsole { m.world.console with out } := by
      simp only [World.writeConsole, own, Bool.false_eq_true, ↓reduceIte]
      rfl
    simp only [output_away away, withWorld_eq, World.broadcast_std unopened live, written,
      Console.answer]
    cases m.world.console.out.write [m.tape.current] with
    | error error => rfl
    | ok out =>
      simp only [Except.map, answered, Tape.write_current]
      rfl
  · simp [target] at file
  · simp [target] at tcp

/-- An input from the console. -/
theorem input_answered (wired : m.world.Wired) (target : m.world.target = .std ∨ m.world.target = .tcp)
    (head : Header) (next : Block) :
    m.input head next =
      m.answered head next m.world.console (m.world.console.answer m.tape.current .read) := by
  have live : m.world.endpoints = [.console] ∨ m.world.endpoints = [] := by
    rcases wired with ⟨-, -, live⟩ | ⟨-, file, -⟩ | ⟨-, -, live⟩
    · exact .inl live
    · simp [file] at target
    · exact .inr live
  cases found : m.world.console.input.read with
  | error error =>
    simp only [input, withWorld_eq, World.read_console_error wired.unopened live found, Console.answer,
      found]
    rfl
  | ok read =>
    obtain ⟨byte, input⟩ := read
    simp only [Machine.input, withWorld_eq, World.read_console wired.unopened live found, Console.answer,
      found]
    rfl

/-- A step that makes a call goes by what the console answers, whatever console that is. -/
theorem AtConsole.step_call {call : Console.Call} (seated : m.AtConsole)
    (calls : m.call? = some (call, head)) :
    ∃ next, ∀ console : Console, console.forwarded = false →
      (m.withConsole console).step =
        m.answered head next console (console.answer m.tape.current call) := by
  obtain ⟨action, next, ready, rest, cell, found⟩ := call?_eq_some_iff.mp calls
  have acts (n : Machine) (phase : n.phase = m.phase) (frame : n.frame = m.frame)
      (tape : n.tape = m.tape) : n.step = n.perform head action next := by
    simp [Machine.step, phase, ready, act, frame, rest, tape, cell]
  refine ⟨next, fun console own => (acts (m.withConsole console) rfl rfl rfl).trans ?_⟩
  have held := seated.withConsole own
  rcases Console.Call.of?_eq_some_iff.mp found with ⟨rfl, rfl, target⟩ | ⟨rfl, rfl, target⟩
  · exact output_answered held.wired own target head next
  · exact input_answered held.wired target head next

/-! ### What a step makes of the console -/

theorem Offline.wired_step (offline : m.Offline) (wired : m.world.Wired) : m.step.world.Wired := by
  rcases step_world with ⟨session, same⟩ | ⟨head, action, next, -, rest, same⟩
  · rw [same]
    exact wired.of_same rfl rfl rfl
  · rw [same]
    rcases perform_world offline.away head action next with kept | ⟨-, sent⟩ | ⟨-, read⟩ |
      ⟨name, rfl, switched⟩
    · rwa [kept]
    · rw [sent]
      exact wired.broadcast m.tape.current
    · rw [read]
      exact wired.read
    · rw [switched]
      exact wired.switch (bne_iff_ne.mp (offline.allowed rest))

/-- A step leaves the console as it is, or as it answers a call. -/
theorem AtConsole.console_step (seated : m.AtConsole) : m.step.world.console = m.world.console ∨
    ∃ call head byte, m.call? = some (call, head) ∧
      m.world.console.answer m.tape.current call = .ok (m.step.world.console, byte) := by
  cases calls : m.call? with
  | none =>
    left
    exact congrArg (·.world.console) (seated.withConsole_step calls m.world.console)
  | some found =>
    obtain ⟨call, head⟩ := found
    obtain ⟨next, steps⟩ := seated.step_call calls
    have stepped : m.step = _ := steps m.world.console seated.own
    rw [stepped]
    match answer : m.world.console.answer m.tape.current call with
    | .ok (console, byte) => exact .inr ⟨call, head, byte, rfl, answer⟩
    | .error _ => exact .inl rfl

theorem AtConsole.step (seated : m.AtConsole) : m.step.AtConsole where
  offline := seated.offline.step
  wired := seated.offline.wired_step seated.wired
  own := by
    rcases seated.console_step with same | ⟨_, _, _, -, answered⟩
    · rw [same]
      exact seated.own
    · exact (Console.answer_keeps answered).2.trans seated.own

theorem AtConsole.sound_step (seated : m.AtConsole) (sound : m.world.console.Sound) :
    m.step.world.console.Sound := by
  rcases seated.console_step with same | ⟨call, head, byte, -, answered⟩
  · rw [same]
    exact sound
  · obtain ⟨d, byte', answered', sound'⟩ := sound.answer m.tape.current call
    obtain ⟨rfl, -⟩ := Prod.mk.inj (Except.ok.inj (answered'.symm.trans answered))
    exact sound'

end Machine
end TapeLang

import TapeLang.Machine.Run
import TapeLang.Proofs.Stepping

/-!
What a client has sent and nobody has read. It matters only where a paused machine waits for a command:
everything else does the same to a world whose client sent something else (`withReader`), and reads none
of it (`Machine.withReader_step`).
-/
namespace TapeLang

open Source (Action Block Header Statement)
open Host (Line LineSource)

namespace Debug.Session

/-- The session with another source of lines. -/
def withReader (s : Session) (reader : LineSource) : Session := { s with reader }

theorem withReader_send (s : Session) (reader : LineSource) (message : ServerMessage) :
    (s.withReader reader).send message = (s.send message).map (·.withReader reader) := by
  have same : (s.withReader reader).writer = s.writer := rfl
  unfold send
  rw [same]
  cases s.writer.write message.encode <;> rfl

theorem withReader_sendState (s : Session) (reader : LineSource) (snapshot : Snapshot) :
    (s.withReader reader).sendState snapshot =
      ((s.sendState snapshot).1.withReader reader, (s.sendState snapshot).2) := by
  have sent := withReader_send { s with state := .paused } reader (.state snapshot)
  have same : { s.withReader reader with state := .paused } =
      ({ s with state := .paused } : Session).withReader reader := rfl
  simp only [sendState, same, sent]
  cases send { s with state := .paused } (.state snapshot) <;> rfl

theorem withReader_resume (s : Session) (reader : LineSource) :
    (s.withReader reader).resume = s.resume.withReader reader := by
  have same : (s.withReader reader).state = s.state := rfl
  unfold resume
  rw [same]
  split <;> rfl

theorem withReader_writeStream (s : Session) (reader : LineSource) (bytes : List UInt8) (name : Text) :
    (s.withReader reader).writeStream bytes name = (s.writeStream bytes name).map (·.withReader reader) := by
  have same : (s.withReader reader).state = s.state := rfl
  unfold writeStream
  rw [same, withReader_send]
  split <;> rfl

theorem withReader_reportError (s : Session) (reader : LineSource) (text : String) :
    (s.withReader reader).reportError text = (s.reportError text).map (·.withReader reader) := by
  have same : (s.withReader reader).mirrors = s.mirrors := rfl
  unfold reportError
  rw [same, withReader_writeStream]
  split <;> rfl

theorem withReader_writeThrough (s : Session) (reader : LineSource) (bytes : List UInt8) (name : Text) :
    (s.withReader reader).writeThrough bytes name =
      (s.writeThrough bytes name).map fun done => (done.1, done.2.withReader reader) := by
  unfold writeThrough
  rw [withReader_writeStream]
  split
  · rfl
  · cases s.writeStream bytes name <;> rfl

end Debug.Session

/-! ## Worlds -/

namespace World

/-- The world whose session has another source of lines. -/
def withReader (w : World) (reader : LineSource) : World :=
  { w with session := w.session.map (·.withReader reader) }

/-- Where the session reads its lines from. -/
def reader (w : World) : LineSource := (w.session.map (·.reader)).getD {}

theorem withReader_withReader (w : World) (reader other : LineSource) :
    (w.withReader reader).withReader other = w.withReader other := by
  obtain ⟨console, session, files, traffic, config, target, endpoints, listener, opened⟩ := w
  cases session <;> rfl

theorem withReader_reader (w : World) : w.withReader w.reader = w := by
  obtain ⟨console, session, files, traffic, config, target, endpoints, listener, opened⟩ := w
  cases session <;> rfl

theorem withReader_drain (w : World) (reader : LineSource) :
    (w.withReader reader).drain = w.drain.withReader reader := by
  have same : (w.withReader reader).listener = w.listener := rfl
  simp only [drain, same]
  cases w.listener <;> rfl

theorem withReader_writeConsole (w : World) (reader : LineSource) (stream : Stream) (bytes : List UInt8) :
    (w.withReader reader).writeConsole stream bytes = (w.writeConsole stream bytes).map (·.withReader reader) := by
  have console : (w.withReader reader).console = w.console := rfl
  have client : (w.withReader reader).session = w.session.map (·.withReader reader) := rfl
  unfold writeConsole
  rw [console, client]
  cases own : w.console.forwarded with
  | true =>
    simp only [↓reduceIte]
    cases same : w.session with
    | none => rfl
    | some session =>
      simp only [Option.map_some, Debug.Session.withReader_writeThrough]
      cases session.writeThrough bytes stream.name <;> rfl
  | false =>
    simp only [Bool.false_eq_true, ↓reduceIte]
    cases stream with
    | out => cases w.console.out.write bytes <;> rfl
    | err => cases w.console.err.write bytes <;> rfl

theorem withReader_writeByte (w : World) (reader : LineSource) (byte : UInt8) (endpoint : Endpoint) :
    (w.withReader reader).writeByte byte endpoint = (w.writeByte byte endpoint).map (·.withReader reader) := by
  cases endpoint with
  | console => exact withReader_writeConsole w reader .out [byte]
  | file | connection => rfl

theorem withReader_writeEach (w : World) (reader : LineSource) (byte : UInt8) (endpoints : List Endpoint) :
    (w.withReader reader).writeEach byte endpoints =
      ((w.writeEach byte endpoints).1.withReader reader, (w.writeEach byte endpoints).2) := by
  induction endpoints generalizing w with
  | nil => rfl
  | cons endpoint rest ih =>
    simp only [writeEach, withReader_writeByte]
    cases w.writeByte byte endpoint with
    | error error => rfl
    | ok v => exact ih v

theorem withReader_broadcast (w : World) (reader : LineSource) (byte : UInt8) :
    (w.withReader reader).broadcast byte =
      ((w.broadcast byte).1.withReader reader, (w.broadcast byte).2) := by
  simp only [broadcast, withReader_drain]
  exact withReader_writeEach w.drain reader byte w.drain.endpoints

theorem withReader_read (w : World) (reader : LineSource) :
    (w.withReader reader).read = (w.read.1.withReader reader, w.read.2) := by
  have same : (w.drain.withReader reader).endpoints = w.drain.endpoints := rfl
  have console : (w.drain.withReader reader).readConsole =
      w.drain.readConsole.map fun got => (got.1, got.2.withReader reader) := by
    unfold readConsole withReader
    cases w.drain.console.input.read <;> rfl
  simp only [read, withReader_drain, readLive, same, console]
  cases w.drain.endpoints.head? with
  | none => cases w.drain.readConsole <;> rfl
  | some endpoint =>
    cases endpoint with
    | console => cases w.drain.readConsole <;> rfl
    | file | connection => rfl

theorem withReader_awaitRounds (rounds : Nat) (w : World) (reader : LineSource) :
    awaitRounds rounds (w.withReader reader) =
      (awaitRounds rounds w).map fun got => (got.1.withReader reader, got.2) := by
  induction rounds generalizing w with
  | zero => rfl
  | succ rounds ih =>
    have same (w : World) : (w.withReader reader).endpoints = w.endpoints ∧
        (w.withReader reader).traffic = w.traffic := ⟨rfl, rfl⟩
    unfold awaitRounds
    simp only [withReader_drain, (same _).1, (same _).2]
    split
    · rfl
    · cases w.drain.traffic.waiters.isReleased Waiters.connection with
      | error fault => rfl
      | ok released =>
        cases released with
        | false => rfl
        | true =>
          dsimp only [bind, Except.bind]
          simp only [Bool.not_true, Bool.false_eq_true, ↓reduceIte]
          split
          · rfl
          · cases w.drain.drain.traffic.rearm with
            | error fault => rfl
            | ok traffic => exact ih { w.drain.drain with traffic }

theorem withReader_finishCycle (w : World) (reader : LineSource) :
    (w.withReader reader).finishCycle = w.finishCycle.map (·.withReader reader) := by
  have same : (w.withReader reader).traffic = w.traffic ∧ (w.withReader reader).endpoints = w.endpoints :=
    ⟨rfl, rfl⟩
  unfold finishCycle
  rw [same.1, same.2]
  cases w.traffic.rearm with
  | error fault => rfl
  | ok traffic =>
    dsimp only [bind, Except.bind]
    split <;> rfl

theorem withReader_closeListener (w : World) (reader : LineSource) :
    (w.withReader reader).closeListener = (w.closeListener.1.withReader reader, w.closeListener.2) := by
  have same : (w.withReader reader).listener = w.listener ∧ (w.withReader reader).traffic = w.traffic :=
    ⟨rfl, rfl⟩
  unfold closeListener
  rw [same.1, same.2]
  cases w.listener with
  | none => rfl
  | some id =>
    dsimp only
    cases w.traffic.closeListener id <;> rfl

theorem withReader_enter (w : World) (reader : LineSource) (name : String) :
    (w.withReader reader).enter name = ((w.enter name).1.withReader reader, (w.enter name).2) := by
  have same : (w.withReader reader).files = w.files ∧ (w.withReader reader).config = w.config ∧
      (w.withReader reader).traffic = w.traffic := ⟨rfl, rfl, rfl⟩
  unfold enter
  cases Source.Target.ofName? name with
  | none => rfl
  | some target =>
    cases target with
    | std | tcp => rfl
    | file =>
      simp only [openFile, same.1, same.2.1]
      cases w.files.openShared w.config.filePath with
      | ok opened => rfl
      | error error => cases error <;> rfl
    | http =>
      simp only [openNetwork, same.2.1, same.2.2]
      cases BindAddress.parse? w.config.httpAddress with
      | none => rfl
      | some address =>
        dsimp only
        cases bindStop? w.config address with
        | some stop => rfl
        | none =>
          dsimp only
          cases w.traffic.openListener (MediaType.ofResource w.config.filePath) <;> rfl

theorem withReader_switch (w : World) (reader : LineSource) (name : String) :
    (w.withReader reader).switch name = ((w.switch name).1.withReader reader, (w.switch name).2) := by
  have same : (w.withReader reader).target = w.target := rfl
  unfold switch
  rw [same]
  by_cases network : w.target = .http
  · simp only [network, ↓reduceIte, withReader_closeListener]
    cases w.closeListener.2 with
    | error stop => rfl
    | ok => exact withReader_enter w.closeListener.1 reader name
  · simp only [network, ↓reduceIte]
    exact withReader_enter w reader name

theorem withReader_release {α : Type} (w : World) (reader : LineSource) (result : Except Fault α) :
    (w.withReader reader).release result =
      ((w.release result).1.withReader reader, (w.release result).2) := by
  have closed : (w.withReader reader).close = (w.close.1.withReader reader, w.close.2) := by
    simp only [close, withReader_closeListener]
    cases w.closeListener.2 <;> rfl
  simp only [release, closed]
  generalize w.close = closing
  obtain ⟨v, closing⟩ := closing
  match closing with
  | .ok () | .error (.fault _) | .error (.failure _) => rfl

theorem withReader_reportError (w : World) (reader : LineSource) (text : String) :
    (w.withReader reader).reportError text =
      ((w.reportError text).1.withReader reader, (w.reportError text).2) := by
  have written : ((w.withReader reader).writeError text).toOption.getD (w.withReader reader) =
      ((w.writeError text).toOption.getD w).withReader reader := by
    simp only [writeError, withReader_writeConsole]
    cases w.writeConsole .err (Text.Utf8.encodeString text) <;> rfl
  simp only [reportError, written]
  generalize (w.writeError text).toOption.getD w = v
  obtain ⟨console, session, files, traffic, config, target, endpoints, listener, opened⟩ := v
  cases session with
  | none => rfl
  | some session =>
    have same : (session.withReader reader).attached = session.attached := rfl
    simp only [withReader, Option.map_some, same, Debug.Session.withReader_reportError]
    split
    · cases session.reportError text <;> rfl
    · rfl

end World

/-! ## Machines -/

namespace Machine

/-- The machine whose session has another source of lines. -/
def withReader (m : Machine) (reader : LineSource) : Machine := { m with world := m.world.withReader reader }

theorem withReader_withReader (m : Machine) (reader other : LineSource) :
    (m.withReader reader).withReader other = m.withReader other := by
  rw [withReader, withReader, withReader, World.withReader_withReader]

theorem withReader_reader (m : Machine) : m.withReader m.world.reader = m := by
  rw [withReader, World.withReader_reader]

theorem withReader_showState (m : Machine) (reader : LineSource) (s : Statement) :
    (m.withReader reader).showState s = (m.showState s).withReader reader := by
  have client : (m.withReader reader).world.session = m.world.session.map (·.withReader reader) := rfl
  have shown : (m.withReader reader).snapshot s = m.snapshot s := rfl
  unfold showState withSession
  rw [client, shown]
  cases m.world.session with
  | none => rfl
  | some session =>
    simp only [Option.map_some, Debug.Session.withReader_sendState]
    cases (session.sendState (m.snapshot s)).2 <;> rfl

theorem withReader_attached (m : Machine) (reader : LineSource) : (m.withReader reader).attached = m.attached := by
  have client : (m.withReader reader).world.session = m.world.session.map (·.withReader reader) := rfl
  unfold attached
  rw [client]
  cases m.world.session <;> rfl

theorem withReader_look (m : Machine) (reader : LineSource) (s : Statement) :
    (m.withReader reader).look s = (m.look s).withReader reader := by
  unfold look
  rw [withReader_attached]
  split
  · have same : (m.withReader reader).steering = m.steering ∧ (m.withReader reader).site = m.site := ⟨rfl, rfl⟩
    rw [same.1, same.2]
    dsimp only
    split
    · exact withReader_showState { m with
        steering := (m.steering.shouldPause m.site s.head.marked).2.entered m.site } reader s
    · rfl
  · rfl

theorem withReader_proceed (m : Machine) (reader : LineSource) :
    (m.withReader reader).proceed = m.proceed.withReader reader := by
  have client : (m.withReader reader).world.session = m.world.session.map (·.withReader reader) := rfl
  unfold proceed
  rw [client]
  unfold withReader World.withReader
  cases m.world.session with
  | none => rfl
  | some session => simp only [Option.map_some, Debug.Session.withReader_resume]

theorem withReader_stepOut (m : Machine) (reader : LineSource) :
    (m.withReader reader).stepOut = m.stepOut.withReader reader := by
  have goes := withReader_proceed { m with steering := m.steering.resume } reader
  have same : { m.withReader reader with steering := (m.withReader reader).steering.resume } =
      ({ m with steering := m.steering.resume } : Machine).withReader reader := rfl
  unfold stepOut
  rw [same, goes]
  generalize ({ m with steering := m.steering.resume } : Machine).proceed = left
  have outer : (left.withReader reader).outer = left.outer := rfl
  simp only [outer]
  cases left.outer with
  | nil => rfl
  | cons parent outer =>
    dsimp only
    cases parent.rest.uncons? <;> rfl

/-- The answer to a command does not depend on the lines after it. -/
theorem withReader_answer (m : Machine) (reader : LineSource) (s : Statement) (c : Debug.Command) :
    (m.withReader reader).answer s c = (m.answer s c).withReader reader := by
  have tape : (m.withReader reader).tape = m.tape := rfl
  unfold answer
  rw [tape]
  split
  · rfl
  · exact withReader_proceed (m.armAhead 1) reader
  · exact withReader_proceed (m.armAhead 2) reader
  · cases c.cell.map m.tape.seek with
    | none => rfl
    | some sought =>
      cases sought with
      | error => rfl
      | ok tape => exact withReader_proceed ({ m with tape }.armAhead 1) reader
  · exact withReader_proceed { m with steering := m.steering.resume } reader
  · exact withReader_stepOut m reader
  · cases c.cell with
    | none => rfl
    | some cell =>
      cases c.value with
      | none => rfl
      | some value =>
        dsimp only
        cases m.tape.store cell value with
        | error => rfl
        | ok tape => exact withReader_showState { m with tape } reader s

/-- An operation on the world, and what follows it. -/
theorem withReader_withWorld {α : Type} {reader : LineSource} {f : World → World × α}
    {k : Machine → α → Machine}
    (same : ∀ w, f (w.withReader reader) = ((f w).1.withReader reader, (f w).2))
    (follows : ∀ m result, k (m.withReader reader) result = (k m result).withReader reader) (m : Machine) :
    (m.withReader reader).withWorld f k = (m.withWorld f k).withReader reader := by
  have world : (m.withReader reader).world = m.world.withReader reader := rfl
  rw [withWorld_eq, withWorld_eq, world, same]
  exact follows { m with world := (f m.world).1 } (f m.world).2

theorem withReader_output (m : Machine) (reader : LineSource) (head : Header) (next : Block) :
    (m.withReader reader).output head next = (m.output head next).withReader reader := by
  have same : (m.withReader reader).tape = m.tape ∧ (m.withReader reader).world.target = m.world.target :=
    ⟨rfl, rfl⟩
  have awaits : (m.withReader reader).world.awaitConnection =
      m.world.awaitConnection.map fun got => (got.1.withReader reader, got.2) :=
    World.withReader_awaitRounds 2 m.world reader
  have sends (w : World) := World.withReader_broadcast w reader m.tape.current
  unfold output
  simp only [same.1, same.2, awaits]
  by_cases network : m.world.target = .http
  · simp only [network, ↓reduceIte]
    cases m.world.awaitConnection with
    | error fault => rfl
    | ok got =>
      obtain ⟨world, attached⟩ := got
      cases attached with
      | false => rfl
      | true =>
        simp only [Except.map]
        split
        · rw [World.withReader_finishCycle]
          cases world.finishCycle <;> rfl
        · refine withReader_withWorld sends (fun m result => ?_) { m with world }
          cases result <;> rfl
  · simp only [network, ↓reduceIte]
    refine withReader_withWorld sends (fun m result => ?_) m
    cases result <;> rfl

theorem withReader_perform (m : Machine) (reader : LineSource) (head : Header) (action : Action)
    (next : Block) :
    (m.withReader reader).perform head action next = (m.perform head action next).withReader reader := by
  cases action with
  | increment | decrement | clear | push | none => rfl
  | moveRight | moveLeft =>
    have tape : (m.withReader reader).tape = m.tape := rfl
    simp only [perform, tape]
    split <;> rfl
  | output => exact withReader_output m reader head next
  | input =>
    unfold perform input
    refine withReader_withWorld (fun w => World.withReader_read w reader) (fun m result => ?_) m
    cases result <;> rfl
  | switch target =>
    unfold perform
    refine withReader_withWorld (fun w => World.withReader_switch w reader target) (fun m result => ?_) m
    cases result with
    | ok => rfl
    | error reason => cases reason <;> rfl

theorem withReader_act (m : Machine) (reader : LineSource) :
    (m.withReader reader).act = m.act.withReader reader := by
  have same : (m.withReader reader).frame = m.frame ∧ (m.withReader reader).tape = m.tape := ⟨rfl, rfl⟩
  unfold act
  rw [same.1, same.2]
  cases m.frame.rest with
  | nil => rfl
  | act head action next =>
    dsimp only
    split
    · rfl
    · exact withReader_perform m reader head action next
  | loop head body next =>
    dsimp only
    split
    · rfl
    · split <;> rfl

theorem withReader_endBlock (m : Machine) (reader : LineSource) :
    (m.withReader reader).endBlock = m.endBlock.withReader reader := by
  have same : (m.withReader reader).outer = m.outer ∧ (m.withReader reader).tape = m.tape := ⟨rfl, rfl⟩
  unfold endBlock
  simp only [same.1, same.2]
  cases m.outer with
  | nil => rfl
  | cons parent outer =>
    dsimp only
    split
    · rfl
    · split
      · split <;> rfl
      · rfl

/-- Where a machine does not wait for a command, its step does not depend on the lines. -/
theorem withReader_step {m : Machine}
    (deaf : m.phase = .paused → m.frame.rest.uncons? = none ∨ m.world.session = none)
    (reader : LineSource) : (m.withReader reader).step = m.step.withReader reader := by
  have same : (m.withReader reader).phase = m.phase ∧ (m.withReader reader).frame = m.frame := ⟨rfl, rfl⟩
  have client : (m.withReader reader).world.session = m.world.session.map (·.withReader reader) := rfl
  unfold step
  rw [same.1, same.2]
  cases phase : m.phase with
  | halted outcome => rfl
  | ready => exact withReader_act m reader
  | arriving =>
    dsimp only
    cases m.frame.rest.uncons? with
    | none => exact withReader_endBlock m reader
    | some found => exact withReader_look m reader found.1
  | paused =>
    dsimp only
    rcases deaf phase with ended | alone
    · rw [ended]
      rfl
    · cases m.frame.rest.uncons? with
      | none => rfl
      | some found => simp only [hear, withSession, client, alone, Option.map_none]

/-- Nor does what is left in the end. -/
theorem withReader_conclude (m : Machine) (reader : LineSource) (path : String) (outcome : Outcome) :
    (m.withReader reader).conclude path outcome =
      ((m.conclude path outcome).1.withReader reader, (m.conclude path outcome).2) := by
  have settled : settleOutcome (m.world.withReader reader) path outcome =
      ((settleOutcome m.world path outcome).1.withReader reader, (settleOutcome m.world path outcome).2) := by
    cases outcome with
    | completed | steppedOut | broken => rfl
    | failed failure position =>
      simp only [settleOutcome, World.withReader_reportError]
      generalize m.world.reportError (failure.located position path).report = reported
      obtain ⟨world, reported⟩ := reported
      cases reported <;> rfl
  have world : (m.withReader reader).world = m.world.withReader reader := rfl
  simp only [conclude, world, settled, World.withReader_release]

end Machine

/-! ## Lines -/

/-- The session with these lines still to be read. -/
def Debug.Session.withLines (s : Session) (lines : List Line) : Session :=
  s.withReader { s.reader with pending := lines }

namespace World

/-- The lines that are still to be read. -/
def lines (w : World) : List Line := w.reader.pending

/-- The world with these lines still to be read. -/
def withLines (w : World) (lines : List Line) : World :=
  w.withReader { w.reader with pending := lines }

theorem session_withLines (w : World) (lines : List Line) :
    (w.withLines lines).session = w.session.map (·.withLines lines) := by
  obtain ⟨console, session, files, traffic, config, target, endpoints, listener, opened⟩ := w
  cases session <;> rfl

theorem withLines_withLines (w : World) (lines other : List Line) :
    (w.withLines lines).withLines other = w.withLines other := by
  obtain ⟨console, session, files, traffic, config, target, endpoints, listener, opened⟩ := w
  cases session <;> rfl

theorem withLines_lines (w : World) : w.withLines w.lines = w := withReader_reader w

/-- Where nothing was read, the lines may be replaced before or after. -/
theorem withLines_of_unread {v w : World} (unread : v.withReader w.reader = v) (lines : List Line) :
    v.withReader { w.reader with pending := lines } = v.withLines lines := by
  rw [← unread, withReader_withReader]
  obtain ⟨console, session, files, traffic, config, target, endpoints, listener, opened⟩ := v
  cases session <;> rfl

end World

namespace Machine

variable {m : Machine}

/-- The machine with these lines still to be read. -/
def withLines (m : Machine) (lines : List Line) : Machine := { m with world := m.world.withLines lines }

theorem withLines_withLines (m : Machine) (lines other : List Line) :
    (m.withLines lines).withLines other = m.withLines other := by
  rw [withLines, withLines, withLines, World.withLines_withLines]

theorem withLines_lines (m : Machine) : m.withLines m.world.lines = m := by
  rw [withLines, World.withLines_lines]

/-- What does the same with another source of lines reads nothing. -/
theorem unread_of_withReader {f : Machine → Machine}
    (same : ∀ reader, f (m.withReader reader) = (f m).withReader reader) :
    (f m).world.withReader m.world.reader = (f m).world := by
  have again := same m.world.reader
  rw [withReader_reader] at again
  exact (congrArg world again).symm

/-- And it does the same with other lines. -/
theorem withLines_of_withReader {f : Machine → Machine}
    (same : ∀ reader, f (m.withReader reader) = (f m).withReader reader) (lines : List Line) :
    f (m.withLines lines) = (f m).withLines lines := by
  have world := World.withLines_of_unread (unread_of_withReader same) lines
  calc f (m.withLines lines)
      = (f m).withReader { m.world.reader with pending := lines } := same _
    _ = (f m).withLines lines := congrArg (fun world => { f m with world }) world

theorem withLines_answer (m : Machine) (lines : List Line) (s : Statement) (c : Debug.Command) :
    (m.withLines lines).answer s c = (m.answer s c).withLines lines :=
  withLines_of_withReader (f := (answer · s c)) (fun reader => withReader_answer m reader s c) lines

theorem withLines_step
    (deaf : m.phase = .paused → m.frame.rest.uncons? = none ∨ m.world.session = none)
    (lines : List Line) : (m.withLines lines).step = m.step.withLines lines :=
  withLines_of_withReader (withReader_step deaf) lines

theorem withLines_conclude (m : Machine) (lines : List Line) (path : String) (outcome : Outcome) :
    (m.withLines lines).conclude path outcome =
      ((m.conclude path outcome).1.withLines lines, (m.conclude path outcome).2) := by
  have same := withReader_conclude m m.world.reader path outcome
  rw [withReader_reader] at same
  have unread : (m.conclude path outcome).1.withReader m.world.reader = (m.conclude path outcome).1 :=
    (congrArg Prod.fst same).symm
  have moved := withReader_conclude m { m.world.reader with pending := lines } path outcome
  rw [World.withLines_of_unread unread] at moved
  exact moved

end Machine
end TapeLang

import TapeLang.Proofs.Ending
import TapeLang.Proofs.Steadiness

/-!
Streams that break under a run. Where a stream breaks at a statement, or at a pause before it, the program
fails there (`Machine.Sturdy.brokeAt`), and only there does it fail so (`Machine.Sturdy.struck`); nothing
else of it is executed, and every file is closed. The exit code is zero for a program that was left or
came to its end, and one for a failure, but for a client that the report of the failure does not reach:
then the run has no exit code (`broken_streams`).
-/
namespace TapeLang

open Source (Action Block Header Position Statement)

theorem map_eq_error_iff {ε α β : Type} {x : Except ε α} {f : α → β} {e : ε} :
    x.map f = .error e ↔ x = .error e := by
  cases x <;> simp [Except.map]

/-! ## Sessions -/

namespace Debug.Session

variable {s : Session}

/-- A stream of lines breaks before it says anything: at the next call, or once a blank line is passed
over. -/
inductive CutOff : List Host.Line → Option Nat → Prop where
  | here (broken : Host.spend budget = none) : CutOff lines budget
  | blank (passed : isBlankLine line = true) (served : Host.spend budget = some left)
      (after : CutOff rest left) : CutOff (line :: rest) budget

theorem readCommandFrom_failed_iff (enough : s.reader.pending.length < bound) :
    (s.readCommandFrom bound).1 = .failed e ↔
      e = .inputOutput ∧ CutOff s.reader.pending s.reader.budget := by
  induction bound generalizing s with
  | zero => omega
  | succ bound ih =>
    obtain ⟨⟨pending, complete, budget⟩, writer, state, detached, mirrors, closable, closings⟩ := s
    cases spent : Host.spend budget with
    | none =>
      have cut : CutOff pending budget := .here spent
      simp [Session.readCommandFrom, Host.LineSource.read, spent, cut, eq_comm]
    | some left =>
      cases pending with
      | nil =>
        have served : ¬ CutOff [] budget := by
          rintro ⟨broken⟩
          simp [spent] at broken
        cases complete <;>
          simp [Session.readCommandFrom, Host.LineSource.read, spent, served]
      | cons line rest =>
        simp only [Session.readCommandFrom, Host.LineSource.read, spent]
        split
        next passed =>
          rw [ih (Nat.lt_of_succ_lt_succ enough)]
          refine and_congr_right fun _ => ⟨.blank passed spent, ?_⟩
          rintro (broken | ⟨-, served, after⟩)
          · simp [spent] at broken
          · exact Option.some.inj (spent.symm.trans served) ▸ after
        next spoken =>
          have served : ¬ CutOff (line :: rest) budget := by
            rintro (broken | ⟨passed, -, -⟩)
            · simp [spent] at broken
            · exact spoken passed
          split <;> simp [served]

theorem readCommand_failed_iff : s.readCommand.1 = .failed e ↔
    e = .inputOutput ∧ CutOff s.reader.pending s.reader.budget :=
  readCommandFrom_failed_iff (Nat.lt_succ_self _)

end Debug.Session

/-! ## The console -/

namespace World

variable {w : World}

/-- The console, or the client that its output goes to, takes no more. -/
def Mute (w : World) : Prop :=
  if w.console.forwarded then
    ∃ session, w.session = some session ∧ session.state ≠ .finished ∧
      Host.spend session.writer.budget = none
  else Host.spend w.console.out.budget = none

theorem writeConsole_eq_error_iff {byte : UInt8} :
    w.writeConsole .out [byte] = .error e ↔ e = .inputOutput ∧ w.Mute := by
  unfold World.writeConsole Mute
  cases own : w.console.forwarded with
  | false => simp only [map_eq_error_iff, Host.Sink.write_eq_error_iff, Bool.false_eq_true, ↓reduceIte]
  | true =>
    cases client : w.session with
    | none => simp
    | some session =>
      by_cases finished : session.state = .finished
      · simp [map_eq_error_iff, Debug.Session.writeThrough, Debug.Session.writeStream, finished]
      · simp [map_eq_error_iff, Debug.Session.writeThrough, Debug.Session.writeStream, finished,
          Debug.Session.send_eq_error_iff]

/-- A byte that is output to the console alone, or elsewhere alone, breaks with the console. -/
theorem Routes.broadcast_eq_error_iff (routes : w.Routes) (byte : UInt8) :
    (w.broadcast byte).2 = .error e ↔ e = .inputOutput ∧ .console ∈ w.endpoints ∧ w.Mute := by
  have served {endpoints : List Endpoint} (elsewhere : .console ∉ endpoints) (w : World) :
      (w.writeEach byte endpoints).2 = .ok () := by
    induction endpoints generalizing w with
    | nil => rfl
    | cons endpoint rest ih =>
      obtain ⟨other, later⟩ := not_or.mp (mt List.mem_cons.mpr elsewhere)
      cases endpoint with
      | console => exact absurd rfl other
      | file | connection => exact ih later _
  rw [broadcast, drain_unopened routes.unopened]
  by_cases console : w.target = .std
  · have alone : .console ∈ [Endpoint.console] := List.mem_singleton_self _
    rw [routes.console console, World.writeEach, World.writeByte]
    cases written : w.writeConsole .out [byte] with
    | ok v =>
      have loud : ¬ w.Mute := fun mute => by
        simp [writeConsole_eq_error_iff.mpr ⟨rfl, mute⟩] at written
      simp [World.writeEach, loud]
    | error e' =>
      obtain ⟨rfl, mute⟩ := writeConsole_eq_error_iff.mp written
      simp [mute, eq_comm]
  · simp [routes.elsewhere console, served (routes.elsewhere console)]

/-- What is read comes from the console, and the console gives no more. -/
def Dry (w : World) : Prop :=
  (w.endpoints.head? = none ∨ w.endpoints.head? = some .console) ∧
    Host.spend w.console.input.budget = none

theorem Routes.read_eq_error_iff (routes : w.Routes) :
    w.read.2 = .error e ↔ e = .inputOutput ∧ w.Dry := by
  rw [read, drain_unopened routes.unopened]
  unfold World.readLive Dry
  cases first : w.endpoints.head? with
  | none => cases spent : Host.spend w.console.input.budget <;>
      simp [readConsole, Host.Source.read, spent, Except.map, eq_comm]
  | some endpoint =>
    cases endpoint with
    | console => cases spent : Host.spend w.console.input.budget <;>
        simp [readConsole, Host.Source.read, spent, Except.map, eq_comm]
    | file | connection => simp

/-- A report goes through exactly if the client is not out of reach. -/
theorem Attended.reportError (attended : w.Attended) (text : String) :
    (w.reportError text).2 = .ok () ∧ ¬ w.Unheard ∨
      (w.reportError text).2 = .error (.os .inputOutput) ∧ w.Unheard := by
  cases own : w.console.forwarded with
  | false => exact reportError_own own text
  | true =>
    left
    cases client : w.session with
    | none =>
      refine ⟨?_, by simp [Unheard, client]⟩
      simp [World.reportError, writeError, writeConsole, own, client, Except.toOption]
    | some session =>
      have mirrors : session.mirrors = true := by simpa [own] using (attended session client).2
      exact ⟨reportError_mirrored client mirrors text, by simp [Unheard, client, mirrors]⟩

end World

/-! ## One step -/

namespace Machine

/-- A stream breaks at the statement at a position: as the statement acts, or while the program pauses
there. -/
inductive Struck (m : Machine) : Position → Prop where
  /-- the statement outputs to the console, and the console takes no more -/
  | output (ready : m.phase = .ready) (here : m.frame.rest = .act head .output next)
      (goes : .console ∈ m.world.endpoints) (mute : m.world.Mute) : m.Struck head.position
  /-- the statement reads from the console, and the console gives no more -/
  | input (ready : m.phase = .ready) (here : m.frame.rest = .act head .input next)
      (dry : m.world.Dry) : m.Struck head.position
  /-- the program is to pause, and the client cannot be shown where -/
  | state (arriving : m.phase = .arriving) (first : m.frame.rest.uncons? = some (s, next))
      (client : m.world.session = some session) (attached : session.attached = true)
      (pauses : (m.steering.shouldPause m.site s.head.marked).1 = true)
      (broken : Host.spend session.writer.budget = none) : m.Struck s.head.position
  /-- the program is paused, and no command comes -/
  | command (paused : m.phase = .paused) (first : m.frame.rest.uncons? = some (s, next))
      (client : m.world.session = some session)
      (cut : Debug.Session.CutOff session.reader.pending session.reader.budget) :
      m.Struck s.head.position
  /-- the program is paused, and the client cannot be shown what it assigned -/
  | reply (paused : m.phase = .paused) (first : m.frame.rest.uncons? = some (s, next))
      (client : m.world.session = some session)
      (heard : session.readCommand = (.command command, later))
      (assigns : Debug.Operation.ofName? command.operation = some .assign)
      (cell : command.cell = some index) (value : command.value = some written)
      (stored : m.tape.store index written = .ok changed)
      (broken : Host.spend later.writer.budget = none) : m.Struck s.head.position

/-- The program failed at a position, at a stream that broke. -/
def BrokeAt (m : Machine) (position : Position) : Prop :=
  m.outcome? = some (.failed (.os .inputOutput) position)

variable {m : Machine} {p : Position}

theorem brokeAt_halt {failure : Failure} {place : Position} :
    (m.halt (.failed failure place)).BrokeAt p ↔
      failure = .os .inputOutput ∧ p = place := by
  simp [BrokeAt, halt, outcome?, eq_comm]

theorem brokeAt_stop {head : Header} {failure : Failure} :
    (m.stop head (.failure failure)).BrokeAt p ↔
      failure = .os .inputOutput ∧ p = head.position := brokeAt_halt

/-- A pause is shown, or the program fails. -/
theorem brokeAt_showState (client : m.world.session = some session) (s : Statement) :
    (m.showState s).BrokeAt p ↔
      p = s.head.position ∧ Host.spend session.writer.budget = none := by
  simp only [showState, withSession, client, Debug.Session.sendState, Debug.Session.send,
    Host.Sink.write]
  cases Host.spend session.writer.budget with
  | none => simp [brokeAt_halt]
  | some budget => simp [BrokeAt, outcome?]

theorem brokeAt_look (s : Statement) :
    (m.look s).BrokeAt p ↔ p = s.head.position ∧
      ∃ session, m.world.session = some session ∧ session.attached = true ∧
        (m.steering.shouldPause m.site s.head.marked).1 = true ∧
        Host.spend session.writer.budget = none := by
  have ready (steering : Debug.Steering) :
      ¬ BrokeAt { m with steering, phase := .ready } p := by simp [BrokeAt, outcome?]
  unfold look Machine.attached
  cases client : m.world.session with
  | none => simpa using ready m.steering
  | some session =>
    cases attached : session.attached with
    | false => simpa [attached] using ready m.steering
    | true =>
      dsimp only
      cases pauses : (m.steering.shouldPause m.site s.head.marked).1 with
      | false => simpa [attached, pauses] using ready _
      | true =>
        have shown := brokeAt_showState (m := { m with
          steering := (m.steering.shouldPause m.site s.head.marked).2.entered m.site })
          (p := p) client s
        simpa [attached, pauses] using shown

theorem not_brokeAt_endBlock (arriving : m.phase = .arriving) : ¬ m.endBlock.BrokeAt p := by
  unfold endBlock BrokeAt
  dsimp only
  split
  · simp [halt, outcome?]
  · split
    · simp [halt, outcome?]
    · split
      · split <;> simp [advance, outcome?, arriving]
      · simp [outcome?, arriving]

theorem not_brokeAt_stepOut : ¬ m.stepOut.BrokeAt p := by
  unfold stepOut BrokeAt
  dsimp only
  split
  · simp [halt, outcome?]
  · split <;> simp [advance, outcome?]

/-- Of all commands only an assignment is answered, and only its answer may be lost. -/
theorem brokeAt_answer (paused : m.phase = .paused) (client : m.world.session = some session)
    (s : Statement) (c : Debug.Command) :
    (m.answer s c).BrokeAt p ↔ p = s.head.position ∧
      Debug.Operation.ofName? c.operation = some .assign ∧
      (∃ index written changed, c.cell = some index ∧ c.value = some written ∧
        m.tape.store index written = .ok changed) ∧ Host.spend session.writer.budget = none := by
  have ignored : ¬ m.BrokeAt p := by simp [BrokeAt, outcome?, paused]
  have proceeds (n : Machine) : ¬ n.proceed.BrokeAt p := by simp [BrokeAt, outcome?, proceed]
  unfold answer
  split
  next other => simp [other, ignored]
  next other => simp [other, proceeds]
  next other => simp [other, proceeds]
  next other =>
    split
    · simp [other, proceeds]
    · simp [other, ignored]
  next other => simp [other, proceeds]
  next other => simp [other, not_brokeAt_stepOut]
  next assigns =>
    split
    next cell value cell' value' =>
      split
      next tape stored =>
        have shown := brokeAt_showState (m := { m with tape }) (p := p) client s
        simp [assigns, cell', value', stored, shown]
      next refused => simp [assigns, cell', value', refused, ignored]
    next missing =>
      refine iff_of_false ignored ?_
      rintro ⟨-, -, ⟨index, written, -, cell, value, -⟩, -⟩
      exact missing index written cell value

theorem brokeAt_hear (paused : m.phase = .paused) (client : m.world.session = some session)
    (s : Statement) :
    (m.hear s).BrokeAt p ↔ p = s.head.position ∧
      (Debug.Session.CutOff session.reader.pending session.reader.budget ∨
        ∃ command later, session.readCommand = (.command command, later) ∧
          Debug.Operation.ofName? command.operation = some .assign ∧
          (∃ index written changed, command.cell = some index ∧ command.value = some written ∧
            m.tape.store index written = .ok changed) ∧ Host.spend later.writer.budget = none) := by
  have failing := @Debug.Session.readCommand_failed_iff session
  simp only [hear, withSession, client]
  generalize session.readCommand = read at failing
  obtain ⟨heard, later⟩ := read
  have uncut (other : heard ≠ .failed .inputOutput) :
      ¬ Debug.Session.CutOff session.reader.pending session.reader.budget :=
    fun cut => other (failing.mpr ⟨rfl, cut⟩)
  cases heard with
  | waiting => simp [BrokeAt, outcome?, paused, uncut]
  | gone => simp [BrokeAt, outcome?, uncut]
  | failed error =>
    obtain ⟨rfl, cut⟩ := failing.mp rfl
    simp [brokeAt_halt, cut]
  | refused fault => cases fault <;> simp [BrokeAt, halt, outcome?, uncut]
  | command command =>
    have answered := brokeAt_answer (m := { m with world := { m.world with session := some later } })
      (p := p) paused rfl s command
    simpa [uncut] using answered

theorem step_act (ready : m.phase = .ready) (cell : m.tape.hasCell = true)
    (rest : m.frame.rest = .act head action next) : m.step = m.perform head action next := by
  simp [step, ready, act, rest, cell]

/-- Output and input break with the console; nothing else that acts does. -/
theorem brokeAt_perform (offline : m.Offline) (routes : m.world.Routes)
    (rest : m.frame.rest = .act head action next) :
    (m.perform head action next).BrokeAt p ↔ p = head.position ∧
      (action = .output ∧ .console ∈ m.world.endpoints ∧ m.world.Mute ∨
        action = .input ∧ m.world.Dry) := by
  have advanced (n : Machine) : ¬ (n.advance next).BrokeAt p := by
    simp [BrokeAt, outcome?, advance]
  cases action with
  | increment | decrement | clear | push => simp [perform, advanced]
  | moveRight | moveLeft =>
    simp only [perform]
    split
    · simp [advanced]
    · simp [brokeAt_stop]
  | output =>
    simp only [perform, output_away offline.away, withWorld_eq]
    cases sent : (m.world.broadcast m.tape.current).2 with
    | ok =>
      have served : ¬ (.console ∈ m.world.endpoints ∧ m.world.Mute) := fun broken => by
        have lost := (routes.broadcast_eq_error_iff m.tape.current).mpr ⟨rfl, broken⟩
        simp [sent] at lost
      simp [advanced, served]
    | error e =>
      obtain ⟨rfl, goes, mute⟩ := (routes.broadcast_eq_error_iff m.tape.current).mp sent
      simp [brokeAt_stop, goes, mute]
  | input =>
    simp only [perform, input, withWorld_eq]
    cases read : m.world.read.2 with
    | ok =>
      have served : ¬ m.world.Dry := fun dry => by
        have lost := routes.read_eq_error_iff.mpr ⟨rfl, dry⟩
        simp [read] at lost
      simp [advanced, served]
    | error e =>
      obtain ⟨rfl, dry⟩ := routes.read_eq_error_iff.mp read
      simp [brokeAt_stop, dry]
  | switch name =>
    have other := bne_iff_ne.mp (offline.allowed rest)
    simp only [perform, withWorld_eq]
    split
    · simp [advanced]
    next reason stopped =>
      obtain ⟨failure, rfl, unbroken⟩ := World.switch_stop offline.away other stopped
      simp [brokeAt_stop, unbroken]
  | none => simp [perform, stop, halt, BrokeAt, outcome?]

/-- Where a stream breaks the program fails, at that statement. -/
theorem Sturdy.brokeAt (sturdy : m.Sturdy) (struck : m.Struck p) : m.step.BrokeAt p := by
  have cell : m.tape.hasCell = true := Tape.hasCell_iff.mpr sturdy.inside
  rcases struck with ⟨ready, here, goes, mute⟩ | ⟨ready, here, dry⟩ |
    ⟨arriving, first, client, attached, pauses, broken⟩ | ⟨paused, first, client, cut⟩ |
    ⟨paused, first, client, heard, assigns, named, value, stored, broken⟩
  · rw [step_act ready cell here]
    exact (brokeAt_perform sturdy.offline sturdy.routes here).mpr ⟨rfl, .inl ⟨rfl, goes, mute⟩⟩
  · rw [step_act ready cell here]
    exact (brokeAt_perform sturdy.offline sturdy.routes here).mpr ⟨rfl, .inr ⟨rfl, dry⟩⟩
  · simp only [Machine.step, arriving, first]
    exact (brokeAt_look _).mpr ⟨rfl, _, client, attached, pauses, broken⟩
  · simp only [Machine.step, paused, first]
    exact (brokeAt_hear paused client _).mpr ⟨rfl, .inl cut⟩
  · simp only [Machine.step, paused, first]
    exact (brokeAt_hear paused client _).mpr
      ⟨rfl, .inr ⟨_, _, heard, assigns, ⟨_, _, _, named, value, stored⟩, broken⟩⟩

/-- Nowhere else does a program fail so. -/
theorem Sturdy.struck (sturdy : m.Sturdy) (going : m.outcome? = none) (broke : m.step.BrokeAt p) :
    m.Struck p := by
  have cell : m.tape.hasCell = true := Tape.hasCell_iff.mpr sturdy.inside
  cases phase : m.phase with
  | halted outcome => simp [outcome?, phase] at going
  | arriving =>
    cases first : m.frame.rest.uncons? with
    | none =>
      simp only [Machine.step, phase, first] at broke
      exact absurd broke (not_brokeAt_endBlock phase)
    | some found =>
      simp only [Machine.step, phase, first] at broke
      obtain ⟨rfl, session, client, attached, pauses, broken⟩ := (brokeAt_look found.1).mp broke
      exact .state phase first client attached pauses broken
  | paused =>
    cases first : m.frame.rest.uncons? with
    | none => simp [Machine.step, phase, first, BrokeAt, outcome?] at broke
    | some found =>
      simp only [Machine.step, phase, first] at broke
      cases client : m.world.session with
      | none => simp [hear, withSession, client, BrokeAt, going] at broke
      | some session =>
        obtain ⟨rfl, heard⟩ := (brokeAt_hear phase client found.1).mp broke
        rcases heard with cut | ⟨command, later, heard, assigns, ⟨index, written, changed, named, value,
          stored⟩, broken⟩
        · exact .command phase first client cut
        · exact .reply phase first client heard assigns named value stored broken
  | ready =>
    cases rest : m.frame.rest with
    | nil => simp [Machine.step, phase, act, rest, BrokeAt, outcome?] at broke
    | loop head body next =>
      simp only [Machine.step, phase, act, rest, cell, Bool.not_true, Bool.false_eq_true,
        ↓reduceIte] at broke
      split at broke <;> simp [BrokeAt, outcome?, advance] at broke
    | act head action next =>
      rw [step_act phase cell rest] at broke
      obtain ⟨rfl, ⟨rfl, goes, mute⟩ | ⟨rfl, dry⟩⟩ :=
        (brokeAt_perform sturdy.offline sturdy.routes rest).mp broke
      · exact .output phase rest goes mute
      · exact .input phase rest dry

theorem Struck.going (struck : m.Struck p) : m.outcome? = none := by
  cases struck <;> simp [outcome?, *]

/-! ## The end of a run -/

theorem release_world (w : World) (result : Except Fault Int) : (w.release result).1 = w.close.1 := by
  unfold World.release
  split <;> simp_all

/-- However a run ends, each file that it opened is closed once. -/
theorem conclude_closed (routes : m.world.Routes) (holds : m.world.Holds) (path : String)
    (outcome : Outcome) :
    ∀ handle ∈ (m.conclude path outcome).1.files.handles, handle.closings = 1 := by
  obtain ⟨console, session, same⟩ := settleOutcome_world m.world path outcome
  have holds' : (settleOutcome m.world path outcome).1.Holds := by
    rw [same]
    exact holds.of_same rfl rfl
  have closes : (settleOutcome m.world path outcome).1.closeListener.2 = .ok () := by
    rw [same, World.closeListener_own, World.closeListener, routes.unopened]
  rw [conclude, release_world]
  exact holds'.close closes

/-- How a run ends: well, or with a failure that is reported, or with one whose report is lost. -/
inductive Concludes (w : World) : Outcome → Except Fault Int → Prop where
  | completed : Concludes w .completed (.ok 0)
  | steppedOut : Concludes w .steppedOut (.ok 0)
  | reported {failure : Failure} {place : Position} (heard : ¬ w.Unheard) :
      Concludes w (.failed failure place) (.ok 1)
  | lost {failure : Failure} {place : Position} (unheard : w.Unheard) :
      Concludes w (.failed failure place) (.error (.os .inputOutput))

theorem Concludes.failed_heard {w : World} {failure : Failure} {place : Position}
    (concludes : Concludes w (.failed failure place) result) (heard : ¬ w.Unheard) : result = .ok 1 := by
  cases concludes with
  | reported => rfl
  | lost unheard => exact absurd unheard heard

theorem Concludes.failed_unheard {w : World} {failure : Failure} {place : Position}
    (concludes : Concludes w (.failed failure place) result) (unheard : w.Unheard) :
    result = .error (.os .inputOutput) := by
  cases concludes with
  | reported heard => exact absurd unheard heard
  | lost => rfl

theorem Sturdy.concludes (sturdy : m.Sturdy) (halted : m.outcome? = some outcome) (path : String) :
    Concludes m.world outcome (m.conclude path outcome).2 := by
  have closes : m.world.closeListener.2 = .ok () := by
    rw [World.closeListener, sturdy.routes.unopened]
  rw [conclude_result closes]
  cases outcome with
  | completed => exact .completed
  | steppedOut => exact .steppedOut
  | broken fault => exact absurd (phase_of_halted halted) (sturdy.whole fault)
  | failed failure position =>
    have reported := sturdy.attended.reportError (failure.located position path).report
    simp only [settleOutcome]
    generalize m.world.reportError _ = left at reported
    obtain ⟨v, left⟩ := left
    rcases reported with ⟨rfl, heard⟩ | ⟨rfl, unheard⟩
    · exact .reported heard
    · exact .lost unheard

end Machine

/-- The world that a run starts in: nothing is opened, the console is the active target, and a client, if
there is one, sends commands and is told of a failure in one way. -/
structure World.Fresh (w : World) : Prop where
  target : w.target = .std
  endpoints : w.endpoints = [.console]
  unopened : w.listener = none
  opened : w.opened = []
  handles : w.files.handles = #[]
  attended : w.Attended

theorem World.Fresh.sturdy {world : World} (fresh : world.Fresh)
    (parsed : Block.parse source = .ok program) (offline : program.isOffline = true) :
    (Machine.start program (.blank Tape.standardSize) world).Sturdy where
  offline := Machine.offline_start offline _ (by simp [fresh.target])
  meant := Machine.within_start (Source.isMeant_of_parse parsed) _ _
  inside := Tape.inBounds_blank (by decide)
  routes := ⟨fresh.unopened, fun _ => fresh.endpoints, fun other => absurd fresh.target other⟩
  holds := ⟨by simp [Machine.start, fresh.opened, fresh.handles],
    by simp [Machine.start, Host.Files.closings, fresh.handles]⟩
  attended := fresh.attended
  whole := by simp [Machine.Whole, Machine.start]

/-- What such a program runs through are the steps of its machine. -/
theorem World.Fresh.run_eq {world : World} (fresh : world.Fresh)
    (parsed : Block.parse source = .ok program) (offline : program.isOffline = true) (bound : Nat) :
    (Machine.start program (.blank Tape.standardSize) world).run bound =
      Machine.step^[bound] (.start program (.blank Tape.standardSize) world) :=
  Machine.run_eq_iterate (fun n => ((fresh.sturdy parsed offline).iterate n).awake) bound

/-- A run of a program read from a text that has no `io http`, whatever streams break under it and when.
It never waits. It fails with a broken stream exactly where one breaks at a statement or at a pause. When
it has ended no statement acts any more, each file that it opened is closed once, and it returns zero, or
one after a failure, unless the report of the failure does not reach the client. -/
theorem broken_streams {world : World} (parsed : Block.parse source = .ok program)
    (offline : program.isOffline = true) (fresh : world.Fresh) (path : String) (bound : Nat)
    (m : Machine) (reached : m = (Machine.start program (.blank Tape.standardSize) world).run bound) :
    m.waits = false ∧
    (∀ position, m.Struck position ↔ m.outcome? = none ∧ m.step.BrokeAt position) ∧
    ∀ outcome, m.outcome? = some outcome →
      m.step = m ∧ m.dispatch? = none ∧
      (∀ handle ∈ (m.conclude path outcome).1.files.handles, handle.closings = 1) ∧
      Machine.Concludes m.world outcome (m.conclude path outcome).2 := by
  have sturdy : m.Sturdy := by
    rw [reached, fresh.run_eq parsed offline]
    exact (fresh.sturdy parsed offline).iterate bound
  refine ⟨sturdy.awake, fun position => ⟨fun struck => ⟨struck.going, sturdy.brokeAt struck⟩,
    fun ⟨going, broke⟩ => sturdy.struck going broke⟩, fun outcome halted => ⟨?_, ?_, ?_, ?_⟩⟩
  · exact Machine.step_of_halted halted
  · simp only [Machine.dispatch?, Machine.phase_of_halted halted]
  · exact Machine.conclude_closed sturdy.routes sturdy.holds path outcome
  · exact sturdy.concludes halted path

/-- The output of a program breaks with the console, and the exit code is one. -/
theorem broken_streams_dot :
    let world : World := { console := { out := { budget := some 0 } } }
    let program : Block := .act ⟨⟨1, 1⟩, false⟩ .output .nil
    let m := (Machine.start program (.blank Tape.standardSize) world).run 2
    Block.parse ".".toList = .ok program ∧ program.isOffline = true ∧ world.Fresh ∧
      m.outcome? = some (.failed (.os .inputOutput) ⟨1, 1⟩) ∧ m.dispatch? = none ∧
      ∀ path, (m.conclude path (.failed (.os .inputOutput) ⟨1, 1⟩)).2 = .ok 1 := by
  intro world program m
  have parsed : Block.parse ".".toList = .ok program := rfl
  have fresh : world.Fresh := ⟨rfl, rfl, rfl, rfl, rfl, by simp [World.Attended, world]⟩
  let start := Machine.start program (.blank Tape.standardSize) world
  have first : start.run 1 = { start with phase := .ready } := fresh.run_eq parsed rfl 1
  have twice : m = Machine.step^[2] start := fresh.run_eq parsed rfl 2
  have second : m = (start.run 1).step := by
    rw [twice, fresh.run_eq parsed rfl, Function.iterate_succ_apply']
  have struck : (start.run 1).Struck ⟨1, 1⟩ := by
    have here : start.frame.rest = .act ⟨⟨1, 1⟩, false⟩ .output .nil := rfl
    have goes : .console ∈ start.world.endpoints := List.mem_singleton_self _
    have mute : start.world.Mute := rfl
    exact first ▸ Machine.Struck.output (m := { start with phase := .ready }) rfl here goes mute
  have broke : m.BrokeAt ⟨1, 1⟩ := by
    rw [second]
    exact (((broken_streams parsed rfl fresh "." 1 _ rfl).2.1 ⟨1, 1⟩).mp struck).2
  have ended (path : String) := (broken_streams parsed rfl fresh path 2 m rfl).2.2 _ broke
  have offline : start.Offline := (fresh.sturdy parsed rfl).offline
  have alone : (Machine.step^[2] start).world.session = none := offline.solo_iterate rfl 2
  have heard : ¬ m.world.Unheard := by
    rintro ⟨session, client, -⟩
    rw [twice, alone] at client
    simp at client
  refine ⟨parsed, rfl, fresh, broke, (ended ".").2.1, fun path => ?_⟩
  exact (ended path).2.2.2.failed_heard heard

/-- The client of a program that pauses takes no message. That the pause is not shown is a failure, and
its report is lost in the same way, so the run has no exit code. -/
theorem broken_streams_unheard :
    let world : World := { session := some { writer := { budget := some 0 }, state := .running } }
    let program : Block := .act ⟨⟨1, 6⟩, true⟩ .increment .nil
    let m := (Machine.start program (.blank Tape.standardSize) world).run 1
    Block.parse "debug+".toList = .ok program ∧ program.isOffline = true ∧ world.Fresh ∧
      m.outcome? = some (.failed (.os .inputOutput) ⟨1, 6⟩) ∧
      ∀ path, (m.conclude path (.failed (.os .inputOutput) ⟨1, 6⟩)).2 = .error (.os .inputOutput) := by
  intro world program m
  let session : Debug.Session := { writer := { budget := some 0 }, state := .running }
  have client : world.session = some session := rfl
  have parsed : Block.parse "debug+".toList = .ok program := rfl
  have fresh : world.Fresh := by
    refine ⟨rfl, rfl, rfl, rfl, rfl, fun other same => ?_⟩
    obtain rfl := Option.some.inj (client.symm.trans same)
    exact ⟨⟨by simp [session], rfl⟩, .inr rfl⟩
  let start := Machine.start program (.blank Tape.standardSize) world
  have sturdy : start.Sturdy := fresh.sturdy parsed rfl
  have once : m = start.step := fresh.run_eq parsed rfl 1
  have broke : start.step.BrokeAt ⟨1, 6⟩ := by
    have first : start.frame.rest.uncons? = some (.act ⟨⟨1, 6⟩, true⟩ .increment, .nil) := rfl
    have attached : session.attached = true := rfl
    have pauses : (start.steering.shouldPause start.site true).1 = true := rfl
    have broken : Host.spend session.writer.budget = none := rfl
    exact sturdy.brokeAt (Machine.Struck.state rfl first client attached pauses broken)
  have unheard : start.step.world.Unheard := ⟨{ session with state := .paused }, rfl, rfl, rfl, rfl⟩
  refine ⟨parsed, rfl, fresh, once ▸ broke, fun path => ?_⟩
  rw [once]
  exact (sturdy.step.concludes broke path).failed_unheard unheard

end TapeLang

import Mathlib.Data.List.Basic
import TapeLang.Proofs.Content
import TapeLang.Proofs.Conversation
import TapeLang.Proofs.Dialogue

/-!
The run's side of a dialogue. A debugger sends only commands that a paused program acts on, and so none
is ignored (`Machine.Serves.heed`): it ends the pause, or changes a cell and shows the new state. What a
run tells of its halts and which commands it reads are linked at every step (`Launch.Serves.step`).
-/
namespace TapeLang

open Client (Control Halt)
open Debug (Command ServerMessage Session)
open Dialogue (Event)
open Source (Block Statement)

/-! ## Commands -/

/-- Acts on a command before a statement, whose cell and value are taken to be in range. -/
def Machine.heed (m : Machine) (s : Statement) : Control → Machine
  | .step => (m.armAhead 1).proceed
  | .next => (m.armAhead 2).proceed
  | .out => m.stepOut
  | .resume => { m with steering := m.steering.resume }.proceed
  | .move cell => ({ m with tape := { m.tape with cursor := cell.toNat } }.armAhead 1).proceed
  | .assign cell value =>
    { m with tape := { m.tape with
        cells := m.tape.cells.setIfInBounds cell.toNat (Tape.byte value) } }.showState s

namespace Client.Control

variable {control : Control} {cell value : Int}

theorem inside_of_cellProblem (fits : cellProblem? cell = none) :
    0 ≤ cell ∧ cell < Tape.standardSize := by
  unfold cellProblem? at fits
  split at fits
  next inside => exact inside
  next => simp at fits

theorem small_of_valueProblem (fits : valueProblem? value = none) : 0 ≤ value ∧ value ≤ 255 := by
  unfold valueProblem? at fits
  split at fits
  next small => exact small
  next => simp at fits

/-- The cell and the value of a command that is sent are short numbers. -/
theorem sound_command (accepted : control.problem? = none) : control.command.Sound := by
  have standard : Tape.standardSize = 30000 := rfl
  have short (n : Int) (low : 0 ≤ n) (high : n < 10 ^ 5) : Json.IsShort n := by
    have small : n.natAbs < 10 ^ 5 := by omega
    exact Json.isShort_of_natAbs_lt _ (by decide) small
  refine ⟨Text.ofString_isScalar _, fun n cell => ?_, fun n value => ?_⟩
  · cases control with
    | step | next | out | resume => simp [command] at cell
    | move =>
      obtain rfl := Option.some.inj cell
      obtain ⟨low, high⟩ := inside_of_cellProblem accepted
      exact short _ low (by omega)
    | assign =>
      obtain rfl := Option.some.inj cell
      obtain ⟨low, high⟩ := inside_of_cellProblem (Option.or_eq_none_iff.mp accepted).1
      exact short _ low (by omega)
  · cases control with
    | step | next | out | resume | move => simp [command] at value
    | assign =>
      obtain rfl := Option.some.inj value
      obtain ⟨low, high⟩ := small_of_valueProblem (Option.or_eq_none_iff.mp accepted).2
      exact short _ low (by omega)

theorem decode_encode (accepted : control.problem? = none) :
    Command.decode control.command.encode = .ok control.command :=
  Command.decode_encode (sound_command accepted)

end Client.Control

namespace Machine

variable {m : Machine} {control : Control}

/-- A paused program acts on every command that is sent. -/
theorem answer_accepted (size : m.tape.size = Tape.standardSize) (accepted : control.problem? = none)
    (s : Statement) : m.answer s control.command = m.heed s control := by
  have named (o : Debug.Operation) : Debug.Operation.ofName? (.ofString o.name) = some o := by
    cases o <;> decide
  have index {cell : Int} (fits : Control.cellProblem? cell = none) :
      m.tape.index? cell = some cell.toNat := by
    obtain ⟨low, high⟩ := Control.inside_of_cellProblem fits
    rw [Tape.index?_eq_some_iff, size]
    omega
  cases control with
  | step | next | out | resume => simp only [answer, Control.command, named, Control.operation, heed]
  | move cell =>
    have here : m.tape.seek cell = .ok { m.tape with cursor := cell.toNat } := by
      simp only [Tape.seek, index accepted]
    simp only [answer, Control.command, named, Control.operation, heed, Option.map_some, here]
  | assign cell value =>
    have stored : m.tape.store cell value = .ok { m.tape with
        cells := m.tape.cells.setIfInBounds cell.toNat (Tape.byte value) } := by
      simp only [Tape.store, index (Option.or_eq_none_iff.mp accepted).1]
    simp only [answer, Control.command, named, Control.operation, heed, stored]

end Machine

/-! ## Sessions -/

namespace Debug.Session

variable {s : Session} {controls rest : List Control} {control : Control} {told : List ServerMessage}

/-- A session over the network whose client is there, with the commands that have arrived and
everything the client was told. -/
structure Serves (s : Session) (controls : List Control) (told : List ServerMessage) : Prop
    extends s.Live where
  attached : s.detached = false
  direct : s.mirrors = false
  open' : s.reader.complete = false
  pending : s.reader.pending = controls.map (·.command.encode)
  chunks : s.writer.chunks = (told.map ServerMessage.encode).reverse

theorem Serves.tell (serves : s.Serves controls told) (m : ServerMessage) :
    (s.told m).Serves controls (told ++ [m]) :=
  { serves with
    toLive := serves.toLive.told m
    chunks := by
      rw [List.map_append, List.reverse_append, ← serves.chunks]
      rfl }

/-- The state of a session that goes on makes no difference. -/
theorem Serves.enter (serves : s.Serves controls told) {state : SessionState}
    (unfinished : state ≠ .finished) : { s with state }.Serves controls told :=
  { serves with unfinished }

theorem Serves.resume (serves : s.Serves controls told) : s.resume.Serves controls told := by
  unfold Session.resume
  split
  · exact serves.enter (by decide)
  · exact serves

/-- The session once the first command is read. -/
def afterLine (s : Session) : Session :=
  { s with reader := { s.reader with pending := s.reader.pending.tail } }

theorem Serves.afterLine (serves : s.Serves (control :: rest) told) : s.afterLine.Serves rest told :=
  { serves with
    reads := serves.reads
    pending := by simp [Session.afterLine, serves.pending] }

/-- While no command has arrived the session waits for one. -/
theorem Serves.readCommand_nil (serves : s.Serves [] told) : s.readCommand = (.waiting, s) := by
  simp only [readCommand, readCommandFrom, Host.LineSource.read, serves.reads, Host.spend,
    serves.pending, List.map_nil, serves.open', Bool.false_eq_true, ↓reduceIte]

/-- The first command is read. -/
theorem Serves.readCommand_cons (serves : s.Serves (control :: rest) told)
    (accepted : control.problem? = none) :
    s.readCommand = (.command control.command, s.afterLine) := by
  have full : isBlankLine control.command.encode = false := not_blank_lineOf _ _
  have reads := serves.reads
  have pending := serves.pending
  obtain ⟨⟨lines, complete, budget⟩, writer, state, detached, mirrors, closable, closings⟩ := s
  dsimp only at reads pending
  subst reads pending
  simp only [readCommand, readCommandFrom, Host.LineSource.read, Host.spend, List.map_cons, full,
    Control.decode_encode accepted, Bool.false_eq_true, ↓reduceIte]
  rfl

/-- A command arrives. -/
theorem Serves.arrive (serves : s.Serves controls told) (control : Control) :
    Serves { s with reader := s.reader.arrive control.command.encode } (controls ++ [control]) told :=
  { serves with
    toLive := ⟨serves.unfinished, serves.reads, serves.writes⟩
    pending := by simp [Host.LineSource.arrive, serves.pending] }

/-- The report of an error is one message. -/
theorem Serves.reportError (serves : s.Serves controls told) (text : String) :
    s.reportError text = .ok (s.told (.ofBytes (Text.Utf8.encodeString text) stdErr)) := by
  simp only [Session.reportError, serves.direct, Session.writeStream, serves.unfinished,
    serves.toLive.send, Bool.false_eq_true, ↓reduceIte]

end Debug.Session

/-- The last halt that messages tell of. -/
def Debug.lastHalt? (told : List ServerMessage) : Option Halt :=
  (told.filterMap Halt.ofMessage?).getLast?

theorem Debug.lastHalt?_append {halt : Halt} (told : List ServerMessage) {message : ServerMessage}
    (tells : Halt.ofMessage? message = some halt) : lastHalt? (told ++ [message]) = some halt := by
  simp [lastHalt?, tells]

/-! ## Running -/

namespace Machine

variable {m : Machine} {session : Session} {controls rest : List Control} {control : Control}
  {told : List ServerMessage} {s : Statement} {next : Block}

/-- A running program whose client sends what a paused program acts on, with the commands that have
arrived and everything the client was told. -/
structure Serves (m : Machine) (controls : List Control) (told : List ServerMessage) : Prop where
  client : ∃ session : Session, m.world.session = some session ∧ session.Serves controls told
  own : m.world.console.forwarded = false
  offline : m.Offline
  tape : m.tape.InBounds ∧ m.tape.size = Tape.standardSize
  brief : m.Within Block.IsBrief
  accepted : ∀ control ∈ controls, control.problem? = none
  sound : ∀ message ∈ told, message.Sound
  shown : m.phase = .paused → ∃ s next, m.frame.rest.uncons? = some (s, next) ∧
    Debug.lastHalt? told = some (.paused (m.snapshot s))

/-- A step that tells the client nothing and hears nothing. -/
theorem Serves.quiet (serves : m.Serves controls told)
    (client : ∃ session : Session, m.step.world.session = some session ∧ session.Serves rest told)
    (own : m.step.world.console.forwarded = m.world.console.forwarded)
    (fewer : rest ⊆ controls) (phase : m.step.phase ≠ .paused) : m.step.Serves rest told where
  client := client
  own := own.trans serves.own
  offline := serves.offline.step
  tape := ⟨step_tape.2 serves.tape.1, step_tape.1.trans serves.tape.2⟩
  brief := serves.brief.step Source.hereditary_isBrief
  accepted control member := serves.accepted control (fewer member)
  sound := serves.sound
  shown paused := absurd paused phase

/-- A step that shows a state. -/
theorem Serves.shows {k : Machine} (serves : m.Serves controls told)
    (client : k.world.session = some session) (holds : session.Serves rest told)
    (world : k.world = { m.world with session := some session }) (frame : k.frame = m.frame)
    (tape : m.tape.Keeps k.tape) (first : m.frame.rest.uncons? = some (s, next))
    (fewer : rest ⊆ controls) (shown : m.step = k.showState s) :
    m.step.phase = .paused ∧ m.step.Serves rest (told ++ [.state (k.snapshot s)]) := by
  have sound : (ServerMessage.state (k.snapshot s)).Sound :=
    Shows.sound ⟨k, s, next, frame, tape, first, rfl⟩ serves.brief serves.tape.1 serves.tape.2
  have stepped := shown.trans (showState_live client holds.toLive s)
  have unfinished : Debug.SessionState.paused ≠ .finished := by decide
  have told' := (holds.enter unfinished).tell (ServerMessage.state (k.snapshot s))
  refine ⟨by rw [stepped], ?_⟩
  constructor
  · exact ⟨_, by rw [stepped], told'⟩
  · rw [stepped, world]
    exact serves.own
  · exact serves.offline.step
  · exact ⟨step_tape.2 serves.tape.1, step_tape.1.trans serves.tape.2⟩
  · exact serves.brief.step Source.hereditary_isBrief
  · exact fun control member => serves.accepted control (fewer member)
  · intro message member
    rcases List.mem_append.mp member with earlier | latest
    · exact serves.sound message earlier
    · obtain rfl := List.mem_singleton.mp latest
      exact sound
  · intro _
    refine ⟨s, next, ?_, ?_⟩
    · rw [stepped]
      exact frame ▸ first
    · rw [stepped]
      exact Debug.lastHalt?_append told rfl

/-- Nothing that a statement does is a pause. -/
theorem act_unpaused (ready : m.phase = .ready) : m.act.phase ≠ .paused := by
  have stopped (n : Machine) (head : Source.Header) (reason : Stop) :
      (n.stop head reason).phase ≠ .paused := by
    cases reason <;> simp [stop, halt]
  have sent (head : Source.Header) (next : Block) : (m.output head next).phase ≠ .paused := by
    simp only [output, withWorld_eq]
    split
    · split
      · exact stopped _ _ _
      · simp [ready]
      · split
        · split
          · simp [advance]
          · exact stopped _ _ _
        · split
          · simp [advance]
          · exact stopped _ _ _
    · split
      · simp [advance]
      · exact stopped _ _ _
  unfold act
  split
  · simp
  next head action next _ =>
    split
    · simp [halt]
    · cases action with
      | output => exact sent head next
      | increment | decrement | clear | push => simp [perform, advance]
      | moveRight | moveLeft =>
        simp only [perform]
        split
        · simp [advance]
        · exact stopped _ _ _
      | input | switch =>
        simp only [perform, input, withWorld_eq]
        split
        · simp [advance]
        · exact stopped _ _ _
      | none => exact stopped _ _ _
  · split
    · simp [halt]
    · split
      · simp [advance]
      · simp

/-- The end of a block is no pause. -/
theorem endBlock_unpaused (arriving : m.phase = .arriving) : m.endBlock.phase ≠ .paused := by
  simp only [endBlock]
  split
  · simp [halt]
  · split
    · simp [halt]
    · split
      · split
        · simp [advance]
        · simp [arriving]
      · simp [arriving]

/-- The statement that acts leaves the client alone. -/
theorem Serves.act (serves : m.Serves controls told) (ready : m.phase = .ready) :
    m.step.phase ≠ .paused ∧ m.step.Serves controls told := by
  obtain ⟨session, client, holds⟩ := serves.client
  have acts : m.step = m.act := by simp only [Machine.step, ready]
  have leaves : m.world.Leaves m.step.world := acts ▸ serves.offline.act
  have phase : m.step.phase ≠ .paused := acts ▸ act_unpaused ready
  exact ⟨phase, serves.quiet ⟨session, (leaves.session serves.own).trans client, holds⟩ leaves.forwarded
    (List.Subset.refl controls) phase⟩

/-- A statement that is looked at acts next, or the program pauses there. -/
theorem Serves.arrive (serves : m.Serves controls told) (arriving : m.phase = .arriving) :
    m.step.phase ≠ .paused ∧ m.step.Serves controls told ∨
      ∃ snapshot, m.step.phase = .paused ∧ m.step.Serves controls (told ++ [.state snapshot]) := by
  obtain ⟨session, client, holds⟩ := serves.client
  have same := List.Subset.refl controls
  cases first : m.frame.rest.uncons? with
  | none =>
    have ends : m.step = m.endBlock := by simp only [Machine.step, arriving, first]
    have world : m.step.world = m.world := by rw [ends, endBlock_world]
    have phase : m.step.phase ≠ .paused := by
      rw [ends]
      exact endBlock_unpaused arriving
    refine .inl ⟨phase, serves.quiet ⟨session, ?_, holds⟩ (by rw [world]) same phase⟩
    rw [world, client]
  | some found =>
    obtain ⟨s, next⟩ := found
    have looks : m.step = m.look s := by simp only [Machine.step, arriving, first]
    unfold Machine.look at looks
    split at looks
    · dsimp only at looks
      split at looks
      · refine .inr ⟨_, serves.shows (k := { m with
          steering := (m.steering.shouldPause m.site s.head.marked).2.entered m.site }) client holds
            (by rw [← client]) rfl (.refl _) first same looks⟩
      · have phase : m.step.phase ≠ .paused := by simp [looks]
        refine .inl ⟨phase, serves.quiet ⟨session, ?_, holds⟩ (by rw [looks]) same phase⟩
        rw [looks, client]
    · have phase : m.step.phase ≠ .paused := by simp [looks]
      refine .inl ⟨phase, serves.quiet ⟨session, ?_, holds⟩ (by rw [looks]) same phase⟩
      rw [looks, client]

/-- Without a command a paused program stays as it is. -/
theorem Serves.wait (serves : m.Serves [] told) (paused : m.phase = .paused) : m.step = m := by
  obtain ⟨session, client, holds⟩ := serves.client
  obtain ⟨s, next, first, -⟩ := serves.shown paused
  simp only [Machine.step, paused, first, hear, withSession, client, holds.readCommand_nil]
  rw [← client, ← paused]

/-- A machine once its client's first command is read. -/
def afterLine (m : Machine) : Machine :=
  { m with world := { m.world with session := m.world.session.map Session.afterLine } }

/-- The first command that has arrived is acted on. -/
theorem Serves.heeds (serves : m.Serves (control :: rest) told) (paused : m.phase = .paused) :
    ∃ s next, m.frame.rest.uncons? = some (s, next) ∧ m.step = m.afterLine.heed s control := by
  obtain ⟨session, client, holds⟩ := serves.client
  obtain ⟨s, next, first, -⟩ := serves.shown paused
  have accepted := serves.accepted control List.mem_cons_self
  have size : m.afterLine.tape.size = Tape.standardSize := serves.tape.2
  refine ⟨s, next, first, ?_⟩
  rw [← answer_accepted size accepted]
  simp only [Machine.step, paused, first, hear, withSession, client,
    holds.readCommand_cons accepted, afterLine, Option.map_some]

/-- Stepping out is no pause, and lets the session go on. -/
theorem stepOut_unpaused : m.stepOut.phase ≠ .paused ∧
    m.stepOut.world = { m.world with session := m.world.session.map Session.resume } := by
  simp only [stepOut]
  split
  · exact ⟨by simp [halt], rfl⟩
  · split
    · exact ⟨by simp [advance], rfl⟩
    · exact ⟨by simp, rfl⟩

/-- A command that is heard ends the pause, or shows a new state. -/
theorem Serves.hear (serves : m.Serves (control :: rest) told) (paused : m.phase = .paused) :
    m.step.phase ≠ .paused ∧ m.step.Serves rest told ∨
      ∃ snapshot, m.step.phase = .paused ∧ m.step.Serves rest (told ++ [.state snapshot]) := by
  obtain ⟨session, client, holds⟩ := serves.client
  obtain ⟨s, next, first, heeds⟩ := serves.heeds paused
  have fewer : rest ⊆ control :: rest := List.subset_cons_self control rest
  have heard : m.afterLine.world.session = some session.afterLine := by
    simp only [afterLine, client, Option.map_some]
  have resumes (phase : m.step.phase ≠ .paused) (world : m.step.world = { m.afterLine.world with
      session := m.afterLine.world.session.map Session.resume }) :
      m.step.phase ≠ .paused ∧ m.step.Serves rest told := by
    refine ⟨phase, serves.quiet ⟨_, ?_, holds.afterLine.resume⟩ (by rw [world]; rfl) fewer phase⟩
    simp only [world, heard, Option.map_some]
  cases control with
  | step | next | resume | move =>
    left
    refine resumes ?_ (by rw [heeds]; rfl)
    simp [heeds, heed, proceed]
  | out =>
    obtain ⟨phase, world⟩ := stepOut_unpaused (m := m.afterLine)
    exact .inl (resumes (heeds ▸ phase) (heeds ▸ world))
  | assign cell value =>
    right
    let tape : Tape := { m.tape with
      cells := m.tape.cells.setIfInBounds cell.toNat (Tape.byte value) }
    have kept : m.tape.Keeps tape :=
      ⟨by simp [tape, Tape.size], fun inside => by simpa [tape, Tape.InBounds, Tape.size] using inside⟩
    let stored : Machine := { m.afterLine with tape }
    have shown : m.step = stored.showState s := heeds
    have world : stored.world = { m.world with session := some session.afterLine } := by
      simp only [stored, afterLine, client, Option.map_some]
    exact ⟨_, serves.shows (k := stored) heard holds.afterLine world rfl kept first fewer shown⟩

end Machine

/-! ## Beginning and ending -/

/-- Closing releases what was opened and leaves the session alone. -/
theorem World.session_release {α : Type} (w : World) (result : Except Fault α) :
    (w.release result).1.session = w.session := by
  have closed : w.closeListener.1.session = w.session := by
    unfold closeListener
    dsimp only
    split
    · rfl
    · split <;> rfl
  have all : w.close.1.session = w.session := by
    unfold close
    dsimp only
    split <;> exact closed
  unfold release
  split
  next same => rw [← all, same]
  next same => rw [← all, same]
  next same => rw [← all, same]

/-- A message that tells of no halt. -/
def Debug.ServerMessage.Passing (message : ServerMessage) : Prop :=
  message.Sound ∧ Halt.ofMessage? message = none

namespace Machine

variable {m : Machine} {controls : List Control} {told : List ServerMessage}

/-- At the end of a run the client is told of a failure, and the session is left open. -/
theorem Serves.conclude (serves : m.Serves controls told) (path : String) (outcome : Outcome) :
    ∃ reports, (∀ message ∈ reports, message.Passing) ∧ ∃ session : Session,
      (m.conclude path outcome).1.session = some session ∧
        session.Serves controls (told ++ reports) := by
  obtain ⟨session, client, holds⟩ := serves.client
  have silent (settled : (settleOutcome m.world path outcome).1.session = some session) :
      ∃ reports, (∀ message ∈ reports, message.Passing) ∧ ∃ session : Session,
        (m.conclude path outcome).1.session = some session ∧
          session.Serves controls (told ++ reports) := by
    refine ⟨[], by simp, session, ?_, by rwa [List.append_nil]⟩
    rw [Machine.conclude, World.session_release, settled]
  cases outcome with
  | completed => exact silent client
  | steppedOut => exact silent client
  | broken fault => exact silent client
  | failed failure position =>
    let report := ServerMessage.ofBytes
      (Text.Utf8.encodeString (failure.located position path).report) Debug.stdErr
    have sound : report.Sound := ServerMessage.sound_ofBytes _ (.inr rfl)
    have written : ((m.world.writeError (failure.located position path).report).toOption.getD
        m.world).session = some session := by
      rw [← client]
      cases done : m.world.writeError (failure.located position path).report with
      | error => rfl
      | ok w => exact (World.keeps_writeConsole done).session serves.own
    have attached : session.attached = true := by
      simp [Session.attached, holds.attached, holds.unfinished]
    have sent := holds.reportError (failure.located position path).report
    refine ⟨[report], ?_, session.told report, ?_, holds.tell report⟩
    · intro message member
      obtain rfl := List.mem_singleton.mp member
      exact ⟨sound, rfl⟩
    · rw [Machine.conclude, World.session_release]
      simp only [settleOutcome, World.reportError, written, attached, sent, ↓reduceIte, report]

end Machine

namespace Launch

/-- A world and a text as they are when a run has read its file, on a console of its own. The text is
that of a program that stays away from the network, or of none. -/
structure Prepared (w : World) (text : Text) : Prop where
  alone : w.session = none
  own : w.console.forwarded = false
  away : w.target ≠ .http
  scalar : text.IsScalar
  short : text.length < Text.sizeLimit
  offline : ∀ program, Block.parse text.toString.toList = .ok program → program.isOffline = true

/-- The exit message of a run. -/
def exitOf (result : Except Fault Int) : ServerMessage := .exit (result.toOption.getD 1)

/-- A run whose client sends what a paused program acts on, with the commands that have arrived and
everything the client was told. -/
inductive Serves : Launch → List Control → List ServerMessage → Prop where
  | accepting {w : World} {text : Text} (prepared : Prepared w text) :
      Serves (.accepting w text) [] []
  | running {m : Machine} {controls : List Control} {told : List ServerMessage}
      (serves : m.Serves controls told) : Serves (.running m) controls told
  | finished {w : World} {result : Except Fault Int} {session : Session} {controls : List Control}
      {told : List ServerMessage} (client : w.session = some session)
      (pending : session.reader.pending = controls.map (·.command.encode))
      (chunks : session.writer.chunks =
        ((told ++ [exitOf result]).map ServerMessage.encode).reverse)
      (sound : ∀ message ∈ told ++ [exitOf result], message.Sound) :
      Serves (.finished w result) controls (told ++ [exitOf result])

/-- Whether the client has been told of a halt, and no command was heard since. -/
def halted : Launch → Bool
  | .accepting .. => false
  | .running m => m.phase = .paused
  | .finished .. => true

/-- What a step of a run hears and tells of halts: a program that does not stand may come to a halt, and
one that stands may hear a command and then go on or come to a halt again. -/
inductive Turn (before after : Bool) : List Control → List Halt → Prop where
  | quiet (same : after = before) : Turn before after [] []
  | halt (went : before = false) (stands : after = true) (halt : Halt) : Turn before after [] [halt]
  | hear (stood : before = true) (goes : after = false) (control : Control) :
      Turn before after [control] []
  | answer (stood : before = true) (stands : after = true) (control : Control) (halt : Halt) :
      Turn before after [control] [halt]

variable {path : String} {w : World} {text : Text} {m : Machine} {session : Session}
  {controls : List Control} {told : List ServerMessage} {launch : Launch} {result : Except Fault Int}

/-- At its end a run tells the exit code. -/
theorem serves_ended (client : w.session = some session) (holds : session.Serves controls told)
    (sound : ∀ message ∈ told, message.Sound)
    (short : result.toOption.getD 1 = 0 ∨ result.toOption.getD 1 = 1) :
    (ended w result).Serves controls (told ++ [exitOf result]) := by
  have closed (code : Int) : (session.close code).reader = session.reader ∧
      (session.close code).writer = (session.told (.exit code)).writer := by
    simp only [Session.close, holds.unfinished, holds.toLive.send, ↓reduceIte]
    exact ⟨rfl, trivial⟩
  have client' : ({ w with session := w.session.map (·.close (result.toOption.getD 1)) } : World).session
      = some (session.close (result.toOption.getD 1)) := by
    simp only [client, Option.map_some]
  refine .finished client' ?_ ?_ ?_
  · rw [(closed _).1, holds.pending]
  · rw [(closed _).2, (holds.tell _).chunks]
    rfl
  · intro message member
    rcases List.mem_append.mp member with earlier | latest
    · exact sound message earlier
    · obtain rfl := List.mem_singleton.mp latest
      have few : (result.toOption.getD 1).natAbs < 10 ^ 1 := by
        rcases short with same | same <;> rw [same] <;> decide
      exact Json.isShort_of_natAbs_lt _ (by decide) few

/-- The exit code of a run is 0 or 1. -/
theorem code_conclude (m : Machine) (path : String) (outcome : Outcome) :
    (m.conclude path outcome).2.toOption.getD 1 = 0 ∨
      (m.conclude path outcome).2.toOption.getD 1 = 1 := by
  have settled : (Machine.settleOutcome m.world path outcome).2.toOption.getD 1 = 0 ∨
      (Machine.settleOutcome m.world path outcome).2.toOption.getD 1 = 1 := by
    cases outcome with
    | completed | steppedOut => exact .inl rfl
    | broken fault => exact .inr rfl
    | failed failure position =>
      simp only [Machine.settleOutcome]
      split <;> exact .inr rfl
  unfold Machine.conclude World.release
  dsimp only
  split
  · exact settled
  · exact .inr rfl
  · exact settled

/-- A run that ends after messages that tell of no halt. -/
theorem serves_passing (told : List ServerMessage) {said : List ServerMessage}
    (client : w.session = some session)
    (holds : session.Serves controls (told ++ said)) (sound : ∀ message ∈ told, message.Sound)
    (passing : ∀ message ∈ said, message.Passing)
    (short : result.toOption.getD 1 = 0 ∨ result.toOption.getD 1 = 1) :
    ∃ said, (ended w result).Serves controls (told ++ said) ∧
      ∃ halt, said.filterMap Halt.ofMessage? = [halt] := by
  have silent : said.filterMap Halt.ofMessage? = [] :=
    List.filterMap_eq_nil_iff.mpr fun message member => (passing message member).2
  have all : ∀ message ∈ told ++ said, message.Sound := by
    intro message member
    rcases List.mem_append.mp member with earlier | later
    · exact sound message earlier
    · exact (passing message later).1
  refine ⟨said ++ [exitOf result], ?_, .exited (result.toOption.getD 1), ?_⟩
  · rw [← List.append_assoc]
    exact serves_ended client holds all short
  · rw [List.filterMap_append, silent]
    rfl

/-- A client that has connected and was told what is run. -/
def connected (message : ServerMessage) : Session :=
  { reader := { complete := false }
    writer := ⟨[message.encode], none⟩
    state := .running
    closable := true }

theorem serves_connected (message : ServerMessage) : (connected message).Serves [] [message] :=
  ⟨⟨by simp [connected], rfl, rfl⟩, rfl, rfl, rfl, rfl, rfl⟩

/-- The client is told of a violation of the grammar, unless the error stream has failed. -/
theorem reportSyntax_serves (own : w.console.forwarded = false) (client : w.session = some session)
    (holds : session.Serves controls told) (text : String) :
    ∃ reports, (∀ message ∈ reports, message.Passing) ∧ (∃ session : Session,
      (reportSyntax w text).1.session = some session ∧ session.Serves controls (told ++ reports)) ∧
        (reportSyntax w text).2.toOption.getD 1 = 1 := by
  unfold reportSyntax
  split
  · exact ⟨[], by simp, ⟨session, client, by rwa [List.append_nil]⟩, rfl⟩
  next w' written =>
    have client' : w'.session = some session :=
      ((World.keeps_writeConsole written).session own).trans client
    have sound := ServerMessage.sound_ofBytes (Text.Utf8.encodeString text) (.inr rfl)
    simp only [client', holds.reportError text]
    refine ⟨[.ofBytes (Text.Utf8.encodeString text) Debug.stdErr], ?_, ⟨_, rfl, holds.tell _⟩, rfl⟩
    intro message member
    obtain rfl := List.mem_singleton.mp member
    exact ⟨sound, rfl⟩

/-- A run that has accepted its client runs the program, or ends if there is none. -/
theorem Prepared.accept (prepared : Prepared w text) (path : String) :
    ∃ said, (accept path (.accepting w text)).Serves [] said ∧
      ((accept path (.accepting w text)).halted = false ∧ said.filterMap Halt.ofMessage? = [] ∨
        (accept path (.accepting w text)).halted = true ∧
          ∃ halt, said.filterMap Halt.ofMessage? = [halt]) := by
  let message := introduction path text
  let told : World := { w with session := some (connected message) }
  have holds := serves_connected message
  have introduces : introduce (overNetwork w) path text = .ok told := rfl
  have introduced : ∀ message' ∈ [message], message'.Passing := by
    intro message' member
    obtain rfl := List.mem_singleton.mp member
    exact ⟨sound_introduction prepared.scalar path, rfl⟩
  simp only [Launch.accept, begin, introduces]
  cases parsed : Block.parse text.toString.toList with
  | ok program =>
    have brief : program.IsBrief :=
      Source.brief_of_parse parsed (by rw [length_toString]; exact prepared.short)
    refine ⟨[message], .running ?_, .inl ⟨rfl, rfl⟩⟩
    constructor
    · exact ⟨_, rfl, holds⟩
    · exact prepared.own
    · exact Machine.offline_start (prepared.offline program parsed) _ prepared.away
    · exact ⟨Tape.inBounds_blank (by decide), Tape.size_blank _⟩
    · exact Machine.within_start brief _ _
    · simp
    · exact fun message' member => (introduced message' member).1
    · simp [Machine.start]
  | error refusal =>
    cases refusal with
    | numeral fault =>
      obtain ⟨said, serves, halt⟩ : ∃ said, (ended told (.error (.numeral fault))).Serves [] said ∧
          ∃ halt, said.filterMap Halt.ofMessage? = [halt] :=
        serves_passing [] rfl holds (by simp) introduced (.inr rfl)
      exact ⟨said, serves, .inr ⟨rfl, halt⟩⟩
    | malformed fault position =>
      obtain ⟨reports, passing, ⟨session, client, holds'⟩, code⟩ := reportSyntax_serves
        (w := told) prepared.own rfl holds (fault.located position path).report
      have all : ∀ message' ∈ [message] ++ reports, message'.Passing := by
        intro message' member
        rcases List.mem_append.mp member with earlier | report
        · exact introduced message' earlier
        · exact passing message' report
      obtain ⟨said, serves, halt⟩ := serves_passing [] client holds' (by simp) all (.inr code)
      exact ⟨said, serves, .inr ⟨rfl, halt⟩⟩

/-- What one step of a running program hears and tells. -/
theorem turn_of_running (serves : m.Serves controls told)
    (runs : m.outcome? = none) :
    ∃ heard later said, controls = heard ++ later ∧
      (Launch.running m.step).Serves later (told ++ said) ∧
      Turn (halted (.running m)) (halted (.running m.step)) heard
        (said.filterMap Halt.ofMessage?) := by
  have pauses (snapshot : Debug.Snapshot) : ([.state snapshot] : List ServerMessage).filterMap
      Halt.ofMessage? = [.paused snapshot] := rfl
  cases phase : m.phase with
  | halted outcome => simp [Machine.outcome?, phase] at runs
  | ready =>
    obtain ⟨goes, serves'⟩ := serves.act phase
    refine ⟨[], controls, [], rfl, .running (by rwa [List.append_nil]), .quiet ?_⟩
    simp [halted, phase, goes]
  | arriving =>
    rcases serves.arrive phase with ⟨goes, serves'⟩ | ⟨snapshot, stands, serves'⟩
    · refine ⟨[], controls, [], rfl, .running (by rwa [List.append_nil]), .quiet ?_⟩
      simp [halted, phase, goes]
    · refine ⟨[], controls, _, rfl, .running serves', ?_⟩
      rw [pauses]
      exact .halt (by simp [halted, phase]) (by simp [halted, stands]) _
  | paused =>
    cases controls with
    | nil =>
      refine ⟨[], [], [], rfl, .running ?_, .quiet ?_⟩
      · rwa [serves.wait phase, List.append_nil]
      · rw [serves.wait phase]
    | cons control rest =>
      have stood : halted (.running m) = true := by simp [halted, phase]
      rcases serves.hear phase with ⟨goes, serves'⟩ | ⟨snapshot, stands, serves'⟩
      · refine ⟨[control], rest, [], rfl, .running (by rwa [List.append_nil]), ?_⟩
        exact .hear stood (by simp [halted, goes]) control
      · refine ⟨[control], rest, _, rfl, .running serves', ?_⟩
        rw [pauses]
        exact .answer stood (by simp [halted, stands]) control _

/-- What one step of a run hears and tells. -/
theorem Serves.serve (serves : launch.Serves controls told) (path : String) (reached : Bool) :
    ∃ heard later said, controls = heard ++ later ∧
      (launch.serve path reached).Serves later (told ++ said) ∧
      Turn launch.halted (launch.serve path reached).halted heard
        (said.filterMap Halt.ofMessage?) := by
  cases serves with
  | accepting prepared =>
    cases reached with
    | false => exact ⟨[], [], [], rfl, .accepting prepared, .quiet rfl⟩
    | true =>
      obtain ⟨said, serves, ⟨goes, silent⟩ | ⟨stands, halt, tells⟩⟩ := prepared.accept path
      · refine ⟨[], [], said, rfl, serves, ?_⟩
        rw [silent]
        exact .quiet goes
      · refine ⟨[], [], said, rfl, serves, ?_⟩
        rw [tells]
        exact .halt rfl stands halt
  | finished client pending chunks sound =>
    exact ⟨[], controls, [], rfl, by simpa using .finished client pending chunks sound, .quiet rfl⟩
  | @running m _ _ serves =>
    cases outcome : m.outcome? with
    | some reason =>
      have stepped : Launch.serve path reached (.running m) =
          ended (m.conclude path reason).1 (m.conclude path reason).2 := by
        simp only [Launch.serve, Launch.step, outcome]
      obtain ⟨reports, passing, session, client, holds⟩ := serves.conclude path reason
      obtain ⟨said, serves', halt, tells⟩ := serves_passing _ client holds serves.sound passing
        (code_conclude m path reason)
      rw [stepped]
      refine ⟨[], controls, said, rfl, serves', ?_⟩
      rw [tells]
      refine .halt ?_ rfl halt
      unfold Machine.outcome? at outcome
      split at outcome
      next phase => simp [halted, phase]
      next => simp at outcome
    | none =>
      have stepped : Launch.serve path reached (.running m) = .running m.step := by
        simp only [Launch.serve, Launch.step, outcome]
      rw [stepped]
      exact turn_of_running serves outcome

/-! ## What is recorded -/

/-- What the session of a run holds. -/
theorem Serves.contents (serves : launch.Serves controls told) :
    launch.session.reader.pending = controls.map (·.command.encode) ∧
      launch.session.writer.chunks = (told.map ServerMessage.encode).reverse ∧
      ∀ message ∈ told, message.Sound := by
  cases serves with
  | @accepting w text prepared =>
    have blank : Launch.session (.accepting w text) = {} := by
      simp only [Launch.session, Launch.world, prepared.alone, Option.getD_none]
    rw [blank]
    exact ⟨rfl, rfl, by simp⟩
  | @running m _ _ serves =>
    obtain ⟨session, client, holds⟩ := serves.client
    have same : Launch.session (.running m) = session := by
      simp only [Launch.session, Launch.world, client, Option.getD_some]
    rw [same]
    exact ⟨holds.pending, holds.chunks, serves.sound⟩
  | @finished w result session _ _ client pending chunks sound =>
    have same : Launch.session (.finished w result) = session := by
      simp only [Launch.session, Launch.world, client, Option.getD_some]
    rw [same]
    exact ⟨pending, chunks, sound⟩

/-- A command that arrives waits behind those before it, and nothing else changes. -/
theorem Serves.receive {control : Control} (serves : Serves (.running m) controls told)
    (accepted : control.problem? = none) :
    (arrive control.command.encode (.running m)).Serves (controls ++ [control]) told ∧
      (arrive control.command.encode (.running m)).session.writer =
        (Launch.session (.running m)).writer := by
  cases serves with
  | running serves =>
    obtain ⟨session, client, holds⟩ := serves.client
    constructor
    · refine .running { serves with
        client := ⟨_, by simp only [client, Option.map_some], holds.arrive control⟩
        offline := ⟨serves.offline.away, serves.offline.program⟩
        accepted := ?_ }
      intro control' member
      rcases List.mem_append.mp member with earlier | latest
      · exact serves.accepted control' earlier
      · obtain rfl := List.mem_singleton.mp latest
        exact accepted
    · simp only [arrive, Launch.session, Launch.world, client, Option.map_some, Option.getD_some]

/-- The last that the client of a finished run was told is the exit code. -/
theorem Serves.exited (serves : Serves (.finished w result) controls told) :
    Debug.lastHalt? told = some (.exited (result.toOption.getD 1)) := by
  cases serves with
  | @finished _ _ _ _ told => exact Debug.lastHalt?_append told rfl

theorem Serves.bytes (serves : launch.Serves controls told) :
    launch.session.writer.bytes = told.flatMap ServerMessage.encode := by
  rw [Host.Sink.bytes, serves.contents.2.1, List.reverse_reverse, List.flatMap_def]

/-- The record shows what was heard and what was told. -/
theorem Serves.eventsSince {now : Launch} {heard later : List Control} {said : List ServerMessage}
    (before : launch.Serves (heard ++ later) told) (after : now.Serves later (told ++ said))
    (accepted : ∀ control ∈ heard, control.problem? = none) :
    now.eventsSince launch =
      Event.record (heard.map (·.command)) (said.filterMap Halt.ofMessage?) := by
  obtain ⟨pending, chunks, -⟩ := before.contents
  obtain ⟨pending', chunks', sound⟩ := after.contents
  have commands : now.session.commandsSince launch.session = heard.map (·.command) := by
    rw [Session.commandsSince, pending, pending']
    simp only [List.length_map, List.length_append, Nat.add_sub_cancel, List.map_append]
    rw [List.take_left' (by simp), List.filterMap_map]
    rw [← List.filterMap_eq_map]
    refine List.filterMap_congr fun control member => ?_
    simp [Control.decode_encode (accepted control member), Except.toOption]
  have halts : now.session.haltsSince launch.session = said.filterMap Halt.ofMessage? := by
    rw [Session.haltsSince, chunks, chunks']
    simp only [List.map_append, List.reverse_append, List.length_append, List.length_reverse,
      List.length_map, Nat.add_sub_cancel]
    rw [List.take_left' (by simp), List.reverse_reverse, List.filterMap_map]
    refine List.filterMap_congr fun message member => ?_
    have sound' := sound message (List.mem_append_right told member)
    simp [(ServerMessage.decode_encode sound').2, Except.toOption]
  rw [Launch.eventsSince, commands, halts]

end Launch
end TapeLang

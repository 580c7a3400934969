import TapeLang.Proofs.Alone
import TapeLang.Proofs.Ending
import TapeLang.Proofs.Stuttering

/-!
A client that only observes does not change the program. It steps, steps over or resumes, asks for
what is no operation, or names cells that are not there, and at some point it is gone. Each step of
the program under it is a step of the program on its own, or a pause that leaves everything but the
session as it is; and a pause ends, at the latest with the client's last line. So
`observed_run_iff_lone_run`: the two runs end alike, or neither ends.
-/
namespace TapeLang

open Source (Block Header Statement)

namespace Debug

/-- Whether a cell is not on a tape of so many cells. -/
def isOutside (cells : Nat) (cell : Int) : Bool := decide (cell < 0 ∨ (cells : Int) ≤ cell)

/-- Whether a command neither touches a tape of so many cells nor leaves a loop. -/
def Command.observes (cells : Nat) (c : Command) : Bool :=
  match Operation.ofName? c.operation with
  | none | some .step | some .stepOver | some .resume => true
  | some .stepOut => false
  | some .move => c.cell.all (isOutside cells)
  | some .assign => c.cell.all (isOutside cells) || c.value.isNone

/-- Whether a command does nothing: it is no operation, or names no cell that is there, or assigns
nothing. -/
def Command.idles (cells : Nat) (c : Command) : Bool :=
  match Operation.ofName? c.operation with
  | none => true
  | some .move => c.cell.all (isOutside cells)
  | some .assign => c.cell.all (isOutside cells) || c.value.isNone
  | some .step | some .stepOver | some .stepOut | some .resume => false

/-- Whether a line says nothing or is a command that only observes. -/
def isObserving (cells : Nat) (line : Host.Line) : Bool :=
  Session.isBlankLine line ||
    match Command.decode line with
    | .ok command => command.observes cells
    | .error _ => false

namespace Session

variable {s : Session} {cells : Nat}

/-- The client of a session only observes. Its stream comes to an end, and neither reading from it nor
writing to it fails. -/
structure Observing (cells : Nat) (s : Session) : Prop where
  lines : ∀ line ∈ s.reader.pending, isObserving cells line = true
  ends : s.reader.complete = true
  reads : s.reader.budget = none
  writes : s.writer.budget = none

/-- Every message reaches such a client. -/
theorem Observing.send (observing : s.Observing cells) (message : ServerMessage) :
    ∃ t : Session, s.send message = .ok t ∧ t.Observing cells ∧ t.reader = s.reader := by
  have sent : s.send message =
      .ok { s with writer := ⟨message.encode :: s.writer.chunks, none⟩ } := by
    simp only [Session.send, Host.Sink.write, observing.writes, Host.spend]
  exact ⟨_, sent, ⟨observing.lines, observing.ends, observing.reads, rfl⟩, rfl⟩

theorem Observing.resume (observing : s.Observing cells) : s.resume.Observing cells := by
  unfold Session.resume
  split
  · exact ⟨observing.lines, observing.ends, observing.reads, observing.writes⟩
  · exact observing

/-- What waiting for a command of such a client gives: the client is gone, or it sent a command that
only observes, and fewer of its lines are left. -/
inductive Hears (cells : Nat) (s : Session) : Heard × Session → Prop where
  | gone (observing : t.Observing cells) : Hears cells s (.gone, t)
  | command (observes : c.observes cells = true) (observing : t.Observing cells)
      (fewer : t.reader.pending.length < s.reader.pending.length) : Hears cells s (.command c, t)

theorem Observing.readCommandFrom (observing : s.Observing cells)
    (enough : s.reader.pending.length < bound) : s.Hears cells (s.readCommandFrom bound) := by
  induction bound generalizing s with
  | zero => omega
  | succ bound ih =>
    obtain ⟨⟨pending, complete, budget⟩, writer, state, detached, mirrors, closable, closings⟩ := s
    obtain ⟨lines, rfl, rfl, writes⟩ := observing
    cases pending with
    | nil =>
      simp only [Session.readCommandFrom, Host.LineSource.read, Host.spend, ↓reduceIte]
      exact .gone ⟨by simp, rfl, rfl, writes⟩
    | cons line rest =>
      have harmless := lines line (by simp)
      have left : ∀ line ∈ rest, isObserving cells line = true :=
        fun line member => lines line (by simp [member])
      simp only [Session.readCommandFrom, Host.LineSource.read, Host.spend]
      split
      · have later := ih (s := ⟨⟨rest, true, none⟩, writer, state, detached, mirrors, closable,
          closings⟩) ⟨left, rfl, rfl, writes⟩ (Nat.lt_of_succ_lt_succ enough)
        generalize Session.readCommandFrom bound _ = heard at later
        cases later with
        | gone observing => exact .gone observing
        | command observes observing fewer =>
          exact .command observes observing (Nat.lt_succ_of_lt fewer)
      next said =>
        simp only [isObserving, said, Bool.false_or] at harmless
        split
        next command decoded =>
          rw [decoded] at harmless
          exact .command harmless ⟨left, rfl, rfl, writes⟩ (Nat.lt_succ_self _)
        next refused =>
          rw [refused] at harmless
          simp at harmless

end Session
end Debug

theorem Tape.index?_of_outside {t : Tape} {cell : Int} (outside : Debug.isOutside t.size cell = true) :
    t.index? cell = none := by
  simp only [Debug.isOutside, decide_eq_true_eq] at outside
  simp only [index?, ite_eq_right_iff, reduceCtorEq, imp_false]
  omega

namespace Machine

variable {m : Machine} {session : Debug.Session}

/-! ## One step -/

/-- A machine under a client that only observes: it stays away from the network, and its console
output is its own. -/
structure Watched (m : Machine) : Prop where
  offline : m.Offline
  own : m.world.console.forwarded = false
  client : ∃ session, m.world.session = some session ∧ session.Observing m.tape.size

/-- How many lines a pause may still read. -/
def patience (m : Machine) : Nat :=
  match m.phase, m.world.session with
  | .paused, some session => session.reader.pending.length + 1
  | _, _ => 0

/-- To such a client a pause is shown. -/
theorem showState_observing (client : m.world.session = some session)
    (observing : session.Observing cells) (s : Statement) :
    ∃ shown : Debug.Session, shown.Observing cells ∧
      m.showState s = { m with phase := .paused, world := { m.world with session := some shown } } := by
  have observing' : { session with state := .paused }.Observing cells :=
    ⟨observing.lines, observing.ends, observing.reads, observing.writes⟩
  obtain ⟨shown, sent, shows, -⟩ := observing'.send (.state (m.snapshot s))
  refine ⟨shown, shows, ?_⟩
  simp only [showState, withSession, client, Debug.Session.sendState, sent]

/-- To look at a statement pauses there or lets it act. -/
theorem look_observing (client : m.world.session = some session)
    (observing : session.Observing cells) (s : Statement) :
    (∃ shown : Debug.Session, shown.Observing cells ∧
      (m.look s).world = { m.world with session := some shown }) ∧
      (m.look s).alone = { m.alone with phase := .ready } := by
  unfold look
  split
  · dsimp only
    split
    · obtain ⟨shown, shows, paused⟩ := showState_observing (m := { m with
        steering := (m.steering.shouldPause m.site s.head.marked).2.entered m.site }) client observing s
      rw [paused]
      exact ⟨⟨shown, shows, rfl⟩, rfl⟩
    · exact ⟨⟨session, observing, by rw [← client]⟩, rfl⟩
  · exact ⟨⟨session, observing, by rw [← client]⟩, rfl⟩

/-- What does nothing is ignored. -/
theorem answer_idle {c : Debug.Command} (idle : c.idles m.tape.size = true) (s : Statement) :
    m.answer s c = m := by
  unfold Debug.Command.idles at idle
  unfold answer
  cases operation : Debug.Operation.ofName? c.operation with
  | none => rfl
  | some operation' =>
    cases operation' with
    | step | stepOver | stepOut | resume => simp [operation] at idle
    | move =>
      simp only [operation] at idle
      cases named : c.cell with
      | none => rfl
      | some cell =>
        have outside : m.tape.index? cell = none := Tape.index?_of_outside (by simpa [named] using idle)
        simp [Tape.seek, outside]
    | assign =>
      simp only [operation] at idle
      cases named : c.cell with
      | none => rfl
      | some cell =>
        cases given : c.value with
        | none => rfl
        | some value =>
          have outside : m.tape.index? cell = none :=
            Tape.index?_of_outside (by simpa [named, given] using idle)
          simp [Tape.store, outside]

/-- What only observes is ignored, or lets the statement act. -/
theorem answer_observing {command : Debug.Command} (observes : command.observes m.tape.size = true)
    (s : Statement) :
    m.answer s command = m ∨
      ∃ steering, m.answer s command = { m with steering }.proceed := by
  unfold Debug.Command.observes at observes
  cases operation : Debug.Operation.ofName? command.operation with
  | none => exact .inl (answer_idle (by simp [Debug.Command.idles, operation]) s)
  | some operation' =>
    cases operation' with
    | step | stepOver | resume => exact .inr ⟨_, by simp only [answer, operation]; rfl⟩
    | stepOut => simp [operation] at observes
    | move | assign =>
      exact .inl (answer_idle (by simpa [Debug.Command.idles, operation] using observes) s)

/-- To hear such a client costs the pause a line, or ends it. -/
theorem hear_observing (paused : m.phase = .paused) (client : m.world.session = some session)
    (observing : session.Observing m.tape.size) (s : Statement) :
    (∃ heard : Debug.Session, heard.Observing m.tape.size ∧
      (m.hear s).world = { m.world with session := some heard }) ∧
      (m.hear s).alone = m.alone ∧ (m.hear s).patience < m.patience := by
  have before : m.patience = session.reader.pending.length + 1 := by
    simp only [patience, paused, client]
  have hears := observing.readCommandFrom (Nat.lt_succ_self _)
  simp only [hear, withSession, client, Debug.Session.readCommand]
  generalize Debug.Session.readCommandFrom _ session = heard at hears
  cases hears with
  | gone observing' =>
    refine ⟨⟨_, observing', rfl⟩, ?_, ?_⟩
    · simp only [alone, paused]
      rfl
    · rw [before]
      exact Nat.succ_pos _
  | @command c t observes observing' fewer =>
    dsimp only
    have answered := answer_observing (m := { m with world := { m.world with session := some t } })
      observes s
    rcases answered with ignored | ⟨steering, acted⟩
    · rw [ignored]
      refine ⟨⟨t, observing', rfl⟩, rfl, ?_⟩
      rw [before]
      simp only [patience, paused]
      omega
    · rw [acted]
      refine ⟨⟨t.resume, observing'.resume, rfl⟩, ?_, ?_⟩
      · simp only [alone, proceed, paused]
        rfl
      · rw [before]
        exact Nat.succ_pos _

/-- A step that changes no more of the world than the session of such a client. -/
theorem Watched.of_session (watched : m.Watched) (observing : session.Observing m.tape.size)
    (world : m.step.world = { m.world with session := some session }) : m.step.Watched := by
  refine ⟨watched.offline.step, ?_, session, ?_, ?_⟩
  · rw [world]
    exact watched.own
  · rw [world]
  · rw [step_tape.1]
    exact observing

/-- A step that leaves the session. -/
theorem Watched.of_leaves (watched : m.Watched) (leaves : m.world.Leaves m.step.world) :
    m.step.Watched := by
  obtain ⟨session, client, observing⟩ := watched.client
  refine ⟨watched.offline.step, leaves.forwarded.trans watched.own, session,
    (leaves.session watched.own).trans client, ?_⟩
  rw [step_tape.1]
  exact observing

/-- One step of a watched machine is one step of the machine alone, or no step and less of a pause. -/
theorem Watched.step (watched : m.Watched) :
    m.step.Watched ∧
      (m.step.alone = m.alone.step ∨ m.step.alone = m.alone ∧ m.step.patience < m.patience) := by
  obtain ⟨session, client, observing⟩ := watched.client
  have same : m.alone.frame = m.frame := rfl
  cases phase : m.phase with
  | halted outcome =>
    have still : m.step = m := by simp only [Machine.step, phase]
    have still' : m.alone.step = m.alone := by simp only [Machine.step, alone, phase, Phase.alone]
    rw [still, still']
    exact ⟨watched, .inl rfl⟩
  | arriving =>
    have arrived : m.alone.phase = .arriving := by simp only [alone, phase, Phase.alone]
    cases first : m.frame.rest.uncons? with
    | some found =>
      obtain ⟨s, next⟩ := found
      have looks : m.step = m.look s := by simp only [Machine.step, phase, first]
      have looks' : m.alone.step = { m.alone with phase := .ready } := by
        simp only [Machine.step, arrived, same, first]
        rfl
      obtain ⟨⟨shown, shows, world⟩, alone⟩ := look_observing client observing s
      exact ⟨watched.of_session shows (by rw [looks, world]), .inl (by rw [looks, looks', alone])⟩
    | none =>
      have ends : m.step = m.endBlock := by simp only [Machine.step, phase, first]
      have ends' : m.alone.step = m.alone.endBlock := by
        simp only [Machine.step, arrived, same, first]
      have leaves : m.world.Leaves m.step.world := by
        rw [ends, endBlock_world]
        exact (World.Keeps.refl m.world).toLeaves
      exact ⟨watched.of_leaves leaves, .inl (by rw [ends, ends', alone_endBlock])⟩
  | paused =>
    cases first : m.frame.rest.uncons? with
    | some found =>
      obtain ⟨s, next⟩ := found
      have hears : m.step = m.hear s := by simp only [Machine.step, phase, first]
      obtain ⟨⟨heard, observing', world⟩, still, less⟩ := hear_observing phase client observing s
      exact ⟨watched.of_session observing' (by rw [hears, world]),
        .inr (by rw [hears]; exact ⟨still, less⟩)⟩
    | none =>
      -- nothing pauses at the end of a block; alone, the machine would find it again
      have ready : m.alone.phase = .ready := by simp only [alone, phase, Phase.alone]
      have back : m.step = { m with phase := .arriving } := by
        simp only [Machine.step, phase, first]
      have back' : m.alone.step = { m.alone with phase := .arriving } := by
        simp only [Machine.step, ready, Machine.act, same, Block.eq_nil_of_uncons first]
      refine ⟨watched.of_session observing (by rw [back, ← client]), .inl ?_⟩
      rw [back, back']
      rfl
  | ready =>
    have acts : m.step = m.act := by simp only [Machine.step, phase]
    have ready : m.alone.phase = .ready := by simp only [alone, phase, Phase.alone]
    have acts' : m.alone.step = m.alone.act := by simp only [Machine.step, ready]
    refine ⟨watched.of_leaves (acts ▸ watched.offline.act), .inl ?_⟩
    rw [acts, acts', alone_act watched.offline watched.own]

/-! ## Whole runs -/

theorem Watched.iterate (watched : m.Watched) (n : Nat) : (Machine.step^[n] m).Watched := by
  induction n generalizing m with
  | zero => exact watched
  | succ n ih => exact ih watched.step.1

/-- A watched machine waits neither for its client nor for a connection. -/
theorem Watched.awake (watched : m.Watched) : m.waits = false := by
  obtain ⟨session, client, observing⟩ := watched.client
  have silent : m.awaitsCommand = false := by
    simp only [awaitsCommand, client]
    split
    next same =>
      obtain rfl := Option.some.inj same
      simp [observing.ends]
    next => rfl
  simp only [waits, silent, watched.offline.connected, Bool.or_self]

end Machine

/-! ## What is left of a run -/

/-- An error is reported to such a client without fault, and to the error stream as without it. -/
theorem World.alone_reportError {w : World} {client : Debug.Session}
    (own : w.console.forwarded = false) (attached : w.session = some client)
    (observing : client.Observing cells) (text : String) :
    w.alone.reportError text = ((w.reportError text).1.alone, (w.reportError text).2) := by
  have written : (w.alone.writeError text).toOption.getD w.alone =
      ((w.writeError text).toOption.getD w).alone := by
    simp only [writeError, alone_writeConsole own]
    cases w.writeConsole .err (Text.Utf8.encodeString text) <;> rfl
  have kept : ((w.writeError text).toOption.getD w).session = some client := by
    simp only [writeError]
    cases written : w.writeConsole .err (Text.Utf8.encodeString text) with
    | ok v => exact ((keeps_writeConsole written).session own).trans attached
    | error => exact attached
  have ⟨told, reported⟩ : ∃ told, client.reportError text = .ok told := by
    unfold Debug.Session.reportError Debug.Session.writeStream
    split
    · exact ⟨_, rfl⟩
    · split
      · exact ⟨_, rfl⟩
      · obtain ⟨told, sent, -⟩ := observing.send
          (.ofBytes (Text.Utf8.encodeString text) Debug.stdErr)
        exact ⟨told, sent⟩
  have lone : ((w.writeError text).toOption.getD w).alone.session = none := rfl
  simp only [reportError, written, kept, reported, lone]
  split <;> rfl

/-- A watched machine that has halted leaves what it would have left alone. -/
theorem Machine.Watched.alike (watched : Watched m) (path : String) :
    m.ending? path = m.alone.ending? path := by
  obtain ⟨session, client, observing⟩ := watched.client
  have settled (outcome : Outcome) : settleOutcome m.world.alone path outcome =
      ((settleOutcome m.world path outcome).1.alone, (settleOutcome m.world path outcome).2) := by
    cases outcome with
    | completed | steppedOut | broken => rfl
    | failed failure position =>
      simp only [settleOutcome, World.alone_reportError watched.own client observing]
      generalize m.world.reportError _ = reported
      obtain ⟨v, reported⟩ := reported
      cases reported <;> rfl
  have outcome : m.alone.outcome? = m.outcome? := by
    cases phase : m.phase <;> simp only [outcome?, alone, phase, Phase.alone]
  have world : m.alone.world = m.world.alone := rfl
  simp only [ending?, outcome, conclude, world, settled, World.alone_release]
  rfl

/-- A watched machine and the same machine alone, each with what it ends with. -/
def watchedAlone (path : String) :
    Stuttering.Simulation Machine.step Machine.step (Machine.ending? · path)
      (Machine.ending? · path) (fun m n => m.Watched ∧ n = m.alone) where
  rank := Machine.patience
  alike := by
    rintro m - ⟨watched, rfl⟩
    exact watched.alike path
  answer := by
    rintro m - ⟨watched, rfl⟩ -
    obtain ⟨watched', stepped | ⟨still, less⟩⟩ := watched.step
    · exact ⟨1, ⟨watched', stepped.symm⟩, by simp⟩
    · exact ⟨0, ⟨watched', still.symm⟩, fun _ => less⟩

/-- A program that has no `io http` halts under a client that only observes exactly when it halts with
no client, and with the same ending: exit code, console output, error text, tape, target and files.
The console has streams of its own; one that forwards its output to the session is not there without
it. -/
theorem observed_run_iff_lone_run {world : World} {client : Debug.Session}
    (offline : program.isOffline = true) (away : world.target ≠ .http)
    (own : world.console.forwarded = false) (observing : client.Observing tape.size) (path : String)
    (e : Ending) :
    (Machine.start program tape { world with session := some client }).EndsWith path e ↔
      (Machine.start program tape { world with session := none }).EndsWith path e := by
  have watched : (Machine.start program tape { world with session := some client }).Watched :=
    ⟨Machine.offline_start offline tape away, own, client, rfl, observing⟩
  have lone : (Machine.start program tape { world with session := none }).Offline :=
    Machine.offline_start offline tape away
  rw [Machine.endsWith_iff_iterate fun n => (watched.iterate n).awake,
    Machine.endsWith_iff_iterate fun n => (lone.iterate n).awake (lone.solo_iterate rfl n)]
  exact (watchedAlone path).ends_iff (Machine.settles_step path) (Machine.settles_step path)
    ⟨watched, rfl⟩

/-- A client that steps into a marked loop, tries to leave the tape, and hangs up there. -/
theorem observed_run_iff_lone_run_stepping :
    ∃ (program : Block) (client : Debug.Session), program.isOffline = true ∧
      ({} : World).target ≠ .http ∧ ({} : World).console.forwarded = false ∧
      client.Observing (Tape.blank Tape.standardSize).size ∧ client.reader.pending.length = 4 ∧
      ∀ path e, (Machine.start program (Tape.blank Tape.standardSize)
          { ({} : World) with session := some client }).EndsWith path e ↔
        (Machine.start program (Tape.blank Tape.standardSize)
          { ({} : World) with session := none }).EndsWith path e := by
  let commands : List Debug.Command := [{ operation := .ofString "step" },
    { operation := .ofString "move", cell := some (-1) }, { operation := .ofString "jump" },
    { operation := .ofString "step-over" }]
  have observing : Debug.Session.Observing (Tape.blank Tape.standardSize).size
      { reader := { pending := commands.map Debug.Command.encode }, state := .running } := by
    refine ⟨?_, rfl, rfl, rfl⟩
    rw [Tape.size_blank]
    decide +kernel
  refine ⟨.act ⟨⟨1, 1⟩, true⟩ .increment
    (.loop ⟨⟨1, 2⟩, false⟩ (.act ⟨⟨1, 9⟩, true⟩ .decrement .nil) .nil), _, by decide, by decide, rfl,
    observing, rfl, ?_⟩
  intro path e
  exact observed_run_iff_lone_run (by decide) (by decide) rfl observing path e

end TapeLang

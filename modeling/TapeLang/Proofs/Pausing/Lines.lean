import TapeLang.Proofs.Conversation
import TapeLang.Proofs.Observing
import TapeLang.Proofs.Pausing.Out
import TapeLang.Proofs.Unread

/-!
What one pause reads. A line ends the pause, or assigns to a cell, or is idle (`Command.idles_iff`). A
pause reads up to the first line that ends it, or, when the client's stream comes to its end before, all of
them; each assignment changes its cell and shows the new state, and nothing else does anything
(`Machine.Listens.reads_on`).
-/
namespace TapeLang

open Source (Block Header Statement)
open Host (Line)

/-! ## Commands -/

namespace Debug

/-- Whether a command ends a pause over so many cells. -/
def Command.ends (cells : Nat) (c : Command) : Bool :=
  match Operation.ofName? c.operation with
  | some .step | some .stepOver | some .stepOut | some .resume => true
  | some .move => c.cell.any fun cell => !isOutside cells cell
  | some .assign | none => false

/-- The cell that a command assigns to, if it is there, and what it becomes. -/
def Command.assignment? (cells : Nat) (c : Command) : Option (Nat × UInt8) :=
  match Operation.ofName? c.operation, c.cell, c.value with
  | some .assign, some cell, some value =>
    if isOutside cells cell then none else some (cell.toNat, Tape.byte value)
  | _, _, _ => none

/-- The cell that a command moves the cursor to, if it is there. -/
def Command.target? (cells : Nat) (c : Command) : Option Nat :=
  match Operation.ofName? c.operation, c.cell with
  | some .move, some cell => if isOutside cells cell then none else some cell.toNat
  | _, _ => none

/-- The command of a line, if it holds one. -/
def command? (line : Line) : Option Command :=
  if Session.isBlankLine line then none else (Command.decode line).toOption

/-- Whether a line does nothing at a pause over so many cells. -/
def isIdle (cells : Nat) (line : Line) : Bool :=
  Session.isBlankLine line || (command? line).any (·.idles cells)

/-- What lines assign, in order. -/
def assignments (cells : Nat) (lines : List Line) : List (Nat × UInt8) :=
  lines.filterMap fun line => (command? line).bind (·.assignment? cells)

/-- Whether a line is blank or holds a command that does not end a pause over so many cells. -/
def continues (cells : Nat) (line : Line) : Bool :=
  Session.isBlankLine line || (command? line).any (!·.ends cells)

variable {cells : Nat} {c : Command} {line : Line}

/-- A command is idle if it neither ends a pause nor assigns. -/
theorem Command.idles_iff : c.idles cells = true ↔ c.ends cells = false ∧ c.assignment? cells = none := by
  unfold idles ends assignment?
  cases Operation.ofName? c.operation with
  | none => simp
  | some operation =>
    cases operation with
    | step | stepOver | stepOut | resume => simp
    | move => cases c.cell <;> simp
    | assign => cases c.cell <;> cases c.value <;> simp

theorem command?_eq_some :
    command? line = some c ↔ Session.isBlankLine line = false ∧ Command.decode line = .ok c := by
  unfold command?
  cases Session.isBlankLine line with
  | true => simp
  | false => cases Command.decode line <;> simp [Except.toOption]

end Debug

namespace Tape

variable {t : Tape} {cell value : Int}

/-- The tape with a cell replaced. -/
def put (t : Tape) (a : Nat × UInt8) : Tape := { t with cells := t.cells.setIfInBounds a.1 a.2 }

theorem size_foldl_put (t : Tape) (as : List (Nat × UInt8)) : (as.foldl put t).size = t.size := by
  induction as generalizing t with
  | nil => rfl
  | cons a as ih => exact (ih (t.put a)).trans (by simp [put, size])

theorem cursor_foldl_put (t : Tape) (as : List (Nat × UInt8)) : (as.foldl put t).cursor = t.cursor := by
  induction as generalizing t with
  | nil => rfl
  | cons a as ih => exact ih (t.put a)

theorem index?_of_inside (inside : Debug.isOutside t.size cell = false) :
    t.index? cell = some cell.toNat := by
  simp only [Debug.isOutside, decide_eq_false_iff_not] at inside
  simp only [index?, ite_eq_left_iff, reduceCtorEq, imp_false, not_not]
  omega

end Tape

/-! ## Reading -/

namespace Debug.Session

variable {s : Session} {line : Line} {rest : List Line}

/-- A blank line is passed over. -/
theorem readCommand_blank (reads : s.reader.budget = none) (blank : isBlankLine line = true) :
    (s.withLines (line :: rest)).readCommand = (s.withLines rest).readCommand := by
  obtain ⟨⟨pending, complete, budget⟩, writer, state, detached, mirrors, closable, closings⟩ := s
  obtain rfl : budget = none := reads
  simp only [readCommand, withLines, withReader, List.length_cons]
  conv => lhs; unfold readCommandFrom
  simp only [Host.LineSource.read, Host.spend, blank, ↓reduceIte]

/-- Any other line is taken. -/
theorem readCommand_spoken (reads : s.reader.budget = none) (spoken : isBlankLine line = false) :
    (s.withLines (line :: rest)).readCommand =
      (match Command.decode line with
        | .ok command => .command command
        | .error fault => .refused fault, s.withLines rest) := by
  obtain ⟨⟨pending, complete, budget⟩, writer, state, detached, mirrors, closable, closings⟩ := s
  obtain rfl : budget = none := reads
  simp only [readCommand, withLines, withReader, readCommandFrom, Host.LineSource.read, Host.spend, spoken,
    Bool.false_eq_true, ↓reduceIte]
  cases Command.decode line <;> rfl

theorem readCommand_nil (reads : s.reader.budget = none) :
    (s.withLines []).readCommand =
      if s.reader.complete then
        (.gone, { s.withLines [] with detached := true, state := .running })
      else (.waiting, s.withLines []) := by
  obtain ⟨⟨pending, complete, budget⟩, writer, state, detached, mirrors, closable, closings⟩ := s
  obtain rfl : budget = none := reads
  cases complete <;> rfl

end Debug.Session

namespace Machine

open Debug (ServerMessage Session)

variable {m n : Machine} {s : Statement} {session : Session} {c : Debug.Command} {line : Line}
  {lines before rest : List Line}

/-! ## Answers -/

/-- An assignment changes its cell and shows the new state. -/
theorem answer_assignment {a : Nat × UInt8} (assigns : c.assignment? m.tape.size = some a)
    (s : Statement) : m.answer s c = ({ m with tape := m.tape.put a } : Machine).showState s := by
  unfold Debug.Command.assignment? at assigns
  split at assigns
  next cell value operation named given =>
    split at assigns
    · simp at assigns
    next inside =>
      obtain rfl := Option.some.inj assigns
      have found := Tape.index?_of_inside (Bool.eq_false_iff.mpr inside)
      simp only [answer, operation, named, given, Tape.store, found]
      rfl
  next => simp at assigns

/-- What ends a pause does so, without a word to the client; a move has set the cursor. -/
theorem answer_ends (ends : c.ends m.tape.size = true) (s : Statement) :
    (m.answer s c).phase ≠ .paused ∧ (m.answer s c).world = m.proceed.world ∧
      (m.answer s c).tape =
        { m.tape with cursor := (c.target? m.tape.size).getD m.tape.cursor } := by
  unfold Debug.Command.ends at ends
  unfold Debug.Command.target?
  unfold answer
  cases operation : Debug.Operation.ofName? c.operation with
  | none => simp [operation] at ends
  | some operation' =>
    cases operation' with
    | step | stepOver | resume => exact ⟨by simp [proceed], rfl, rfl⟩
    | assign => simp [operation] at ends
    | stepOut =>
      refine ⟨?_, stepOut_world m, stepOut_tape m⟩
      unfold stepOut
      dsimp only [proceed]
      split
      · simp [halt]
      · split <;> simp [advance]
    | move =>
      simp only [operation] at ends
      cases named : c.cell with
      | none => simp [named] at ends
      | some cell =>
        have inside : Debug.isOutside m.tape.size cell = false := by simpa [named] using ends
        have found := Tape.index?_of_inside inside
        simp only [Option.map_some, Tape.seek, found, inside]
        exact ⟨by simp [proceed], rfl, rfl⟩

/-! ## One line -/

/-- A machine is paused before a statement, and reading from its client does not fail. -/
structure Listens (m : Machine) (s : Statement) (session : Session) : Prop where
  paused : m.phase = .paused
  first : ∃ next, m.frame.rest.uncons? = some (s, next)
  client : m.world.session = some session
  reads : session.reader.budget = none

theorem Listens.hears (listens : m.Listens s session) (lines : List Line) :
    (m.withLines lines).step = (m.withLines lines).hear s ∧
      (m.withLines lines).world.session = some (session.withLines lines) := by
  obtain ⟨paused, ⟨next, first⟩, client, -⟩ := listens
  have same : (m.withLines lines).phase = .paused ∧
      (m.withLines lines).frame.rest.uncons? = some (s, next) := ⟨paused, first⟩
  refine ⟨by simp only [step, same.1, same.2], ?_⟩
  rw [withLines, World.session_withLines, client, Option.map_some]

/-- The machine with a session in place of its own. -/
theorem Listens.withLines_eq (listens : m.Listens s session) (lines : List Line) :
    { m with world := { m.world with session := some (session.withLines lines) } } =
      m.withLines lines := by
  simp only [withLines, World.withLines, World.withReader, World.reader, listens.client, Option.map_some,
    Option.getD_some]
  rfl

theorem Listens.blank (listens : m.Listens s session) (blank : Session.isBlankLine line = true)
    (rest : List Line) : (m.withLines (line :: rest)).step = (m.withLines rest).step := by
  obtain ⟨hears, client⟩ := listens.hears (line :: rest)
  obtain ⟨hears', client'⟩ := listens.hears rest
  rw [hears, hears']
  simp only [hear, withSession, client, client', Session.readCommand_blank listens.reads blank]
  rfl

/-- A line that is not blank does something to the machine, and nothing after it is read. -/
theorem Listens.spoken (listens : m.Listens s session) (spoken : Session.isBlankLine line = false) :
    ∃ n : Machine, (∀ rest, (m.withLines (line :: rest)).step = n.withLines rest) ∧
      (∀ c, Debug.Command.decode line = .ok c → n = m.answer s c) ∧
      n.world.withReader m.world.reader = n.world := by
  cases decoded : Debug.Command.decode line with
  | ok c =>
    refine ⟨m.answer s c, fun rest => ?_, by simp,
      unread_of_withReader (f := (answer · s c)) fun reader => withReader_answer m reader s c⟩
    obtain ⟨hears, client⟩ := listens.hears (line :: rest)
    rw [hears, ← withLines_answer]
    simp only [hear, withSession, client, Session.readCommand_spoken listens.reads spoken, decoded]
    exact congrArg (answer · s c) (listens.withLines_eq rest)
  | error fault =>
    have halts : ∃ outcome, ∀ rest, (m.withLines (line :: rest)).step = (m.withLines rest).halt outcome := by
      have heard (rest : List Line) := listens.hears (line :: rest)
      cases fault
      all_goals
        apply Exists.intro
        intro rest
        rw [(heard rest).1, ← listens.withLines_eq rest]
        simp only [hear, withSession, (heard rest).2, Session.readCommand_spoken listens.reads spoken, decoded]
        rfl
    obtain ⟨outcome, halts⟩ := halts
    exact ⟨m.halt outcome, halts, by simp, World.withReader_reader m.world⟩

/-- Once the client is gone the statement acts, with nothing asked for. -/
theorem Listens.gone (listens : m.Listens s session) (complete : session.reader.complete = true) :
    (m.withLines []).step = { m with
      steering := {}
      phase := .ready
      world := { m.world with
        session := some { session.withLines [] with detached := true, state := .running } } } := by
  obtain ⟨hears, client⟩ := listens.hears []
  rw [hears]
  simp only [hear, withSession, client, Session.readCommand_nil listens.reads, complete, ↓reduceIte]
  rfl

theorem Listens.waits (listens : m.Listens s session) (incomplete : session.reader.complete = false) :
    (m.withLines []).step = m.withLines [] := by
  obtain ⟨hears, client⟩ := listens.hears []
  rw [hears]
  simp only [hear, withSession, client, Session.readCommand_nil listens.reads, incomplete,
    Bool.false_eq_true, ↓reduceIte]
  exact listens.withLines_eq []

/-! ## Lines that do not end a pause -/

/-- An assignment at a pause. -/
def assign (s : Statement) (m : Machine) (a : Nat × UInt8) : Machine :=
  ({ m with tape := m.tape.put a } : Machine).showState s

/-- What is shown of a tape at a statement, when the machine comes to it and after each assignment. -/
def shown (m : Machine) (s : Statement) (as : List (Nat × UInt8)) : List ServerMessage :=
  (as.scanl Tape.put m.tape).map fun tape => .state (({ m with tape } : Machine).snapshot s)

/-- Assignments change the tape and show each new state; the pause goes on, and what is still to be read
is the same. -/
structure Reads (m : Machine) (s : Statement) (session : Session) (as : List (Nat × UInt8))
    (n : Machine) (t : Session) : Prop where
  listens : n.Listens s t
  live : t.Live
  reader : t.reader = session.reader
  standing : t.standing = (.paused, session.detached)
  told : session.Says t (m.shown s as).tail
  tape : n.tape = as.foldl Tape.put m.tape

theorem Listens.assign (listens : m.Listens s session) (live : session.Live) (a : Nat × UInt8) :
    ∃ t, m.Reads s session [a] (assign s m a) t := by
  have shows := showState_live (m := { m with tape := m.tape.put a }) listens.client live s
  unfold Machine.assign
  rw [shows]
  exact ⟨_, ⟨rfl, listens.first, rfl, listens.reads⟩, ⟨by simp [Session.told], live.reads, rfl⟩, rfl,
    rfl, ⟨rfl, rfl, rfl, rfl⟩, rfl⟩

/-- What is shown depends on the tape alone. -/
theorem shown_eq {tape : Tape} (same : n.tape = tape) (s : Statement) (as : List (Nat × UInt8)) :
    n.shown s as = ({ m with tape } : Machine).shown s as := by
  subst same
  rfl

theorem shown_cons (m : Machine) (s : Statement) (a : Nat × UInt8) (as : List (Nat × UInt8)) :
    m.shown s (a :: as) = .state (m.snapshot s) :: ({ m with tape := m.tape.put a } : Machine).shown s as := by
  rw [shown, List.scanl_cons, List.map_cons]
  rfl

theorem head_shown (m : Machine) (s : Statement) (as : List (Nat × UInt8)) :
    m.shown s as = .state (m.snapshot s) :: (m.shown s as).tail := by
  cases as with
  | nil => rfl
  | cons a as => rw [shown_cons, List.tail_cons]

theorem Listens.assigns (listens : m.Listens s session) (live : session.Live)
    (state : session.state = .paused) (as : List (Nat × UInt8)) :
    ∃ t, m.Reads s session as (as.foldl (Machine.assign s) m) t := by
  induction as generalizing m session with
  | nil => exact ⟨session, listens, live, rfl, Prod.ext state rfl, .refl session, rfl⟩
  | cons a as ih =>
    obtain ⟨t, first⟩ := listens.assign live a
    obtain ⟨u, later⟩ := ih first.listens first.live (congrArg Prod.fst first.standing)
    have gone : t.detached = session.detached := congrArg Prod.snd first.standing
    have put : (Machine.assign s m a).tape = m.tape.put a := first.tape
    have told : session.Says u (m.shown s (a :: as)).tail := by
      have told := first.told.trans later.told
      rw [shown_cons, List.tail_cons, ← shown_eq (m := m) put] at told
      rw [shown_cons, List.tail_cons, ← shown_eq (m := m) put, head_shown]
      exact told
    have tape := later.tape
    rw [put] at tape
    exact ⟨u, later.listens, later.live, later.reader.trans first.reader,
      later.standing.trans (by rw [gone]), told, tape⟩

/-- Steps that lead to a machine, each taken from a machine that is paused. -/
def PausedUntil (m n : Machine) : Prop :=
  ∃ k, step^[k + 1] m = n ∧ ∀ i ≤ k, (step^[i] m).phase = .paused

theorem pausedUntil_step (paused : m.phase = .paused) : m.PausedUntil m.step := by
  refine ⟨0, rfl, fun i first => ?_⟩
  obtain rfl : i = 0 := by omega
  exact paused

theorem PausedUntil.cons (paused : m.phase = .paused) (later : m.step.PausedUntil n) :
    m.PausedUntil n := by
  obtain ⟨k, reached, still⟩ := later
  refine ⟨k + 1, reached, fun i within => ?_⟩
  cases i with
  | zero => exact paused
  | succ i => exact still i (by omega)

/-- Only the first step counts. -/
theorem PausedUntil.of_step {k : Machine} (later : k.PausedUntil n) (paused : m.phase = .paused)
    (same : m.step = k.step) : m.PausedUntil n := by
  obtain ⟨j, reached, still⟩ := later
  refine ⟨j, ?_, fun i within => ?_⟩
  · rwa [Function.iterate_succ_apply, same]
  · cases i with
    | zero => exact paused
    | succ i =>
      rw [Function.iterate_succ_apply, same]
      exact still (i + 1) within

/-- Up to the first line that ends it, a pause reads idle lines and assignments. -/
theorem Listens.reads_on (listens : m.Listens s session) (live : session.Live)
    (continues : ∀ line ∈ before, Debug.continues m.tape.size line = true)
    (rest : List Line) :
    (m.withLines (before ++ rest)).PausedUntil
      (((Debug.assignments m.tape.size before).foldl (Machine.assign s) m).withLines rest).step := by
  induction before generalizing m session with
  | nil => exact pausedUntil_step listens.paused
  | cons line before ih =>
    have continues' : ∀ line ∈ before, Debug.continues m.tape.size line = true :=
      fun line member => continues line (by simp [member])
    rw [List.cons_append]
    cases blank : Session.isBlankLine line with
    | true =>
      have nothing : Debug.assignments m.tape.size (line :: before) =
          Debug.assignments m.tape.size before := by
        simp [Debug.assignments, Debug.command?, blank]
      rw [nothing]
      exact (ih listens live continues').of_step listens.paused
        (listens.blank blank (before ++ rest))
    | false =>
      have continues := continues line (by simp)
      simp only [Debug.continues, blank, Bool.false_or, Option.any_eq_true, Bool.not_eq_true'] at continues
      obtain ⟨c, command, goesOn⟩ := continues
      obtain ⟨-, decoded⟩ := Debug.command?_eq_some.mp command
      obtain ⟨n, stepped, answers, -⟩ := listens.spoken blank
      have answered := answers c decoded
      refine .cons listens.paused ?_
      rw [stepped, answered]
      cases assigned : c.assignment? m.tape.size with
      | none =>
        have nothing : Debug.assignments m.tape.size (line :: before) =
            Debug.assignments m.tape.size before := by
          simp [Debug.assignments, command, assigned]
        rw [answer_idle (Debug.Command.idles_iff.mpr ⟨goesOn, assigned⟩), nothing]
        exact ih listens live continues'
      | some a =>
        have one : Debug.assignments m.tape.size (line :: before) =
            a :: Debug.assignments m.tape.size before := by
          simp [Debug.assignments, command, assigned]
        obtain ⟨t, first⟩ := listens.assign live a
        have size : (Machine.assign s m a).tape.size = m.tape.size := by
          rw [first.tape]
          exact Tape.size_foldl_put m.tape [a]
        have turn : m.answer s c = Machine.assign s m a := answer_assignment assigned s
        rw [turn, one, List.foldl_cons, ← size]
        exact ih first.listens first.live (size ▸ continues')

/-! ## One pause -/

/-- A pause that begins: the machine has come to a statement and has shown its state, to a client whose
streams do not fail. -/
structure Begins (m : Machine) (s : Statement) (session : Session) (n : Machine) (t : Session) : Prop where
  listens : n.Listens s t
  live : t.Live
  reader : t.reader = session.reader
  standing : t.standing = (.paused, false)
  told : session.Says t [.state (m.snapshot s)]
  tape : n.tape = m.tape
  place : n.place = m.place

theorem PausesHere.begins (pauses : m.PausesHere) (visits : m.Visits s)
    (client : m.world.session = some session) (reads : session.reader.budget = none)
    (writes : session.writer.budget = none) : ∃ t, m.Begins s session m.step t := by
  obtain ⟨attached, armed⟩ := (pauses_iff visits).mp pauses
  obtain ⟨arriving, next, first⟩ := visits
  have ⟨there, unfinished⟩ : session.detached = false ∧ session.state ≠ .finished := by
    simpa [Machine.attached, client, Session.attached] using attached
  have live : session.Live := ⟨unfinished, reads, writes⟩
  have stepped : m.step = { m with
      steering := (m.steering.shouldPause m.site s.head.marked).2.entered m.site }.showState s := by
    simp only [Machine.step, arriving, first, look, attached, armed, ↓reduceIte]
  have shows := showState_live (m := { m with
    steering := (m.steering.shouldPause m.site s.head.marked).2.entered m.site }) client live s
  rw [stepped, shows]
  exact ⟨_, ⟨rfl, ⟨next, first⟩, rfl, reads⟩, ⟨by simp [Session.told], reads, rfl⟩, rfl,
    Prod.ext rfl there, ⟨rfl, rfl, rfl, rfl⟩, rfl, rfl⟩

/-- What a pause has read so far: the assignments were carried out and shown. -/
theorem Begins.reads_on {t : Session} (begins : m.Begins s session n t)
    (comes : session.reader.pending = before ++ rest)
    (continues : ∀ line ∈ before, Debug.continues m.tape.size line = true) :
    ∃ (k : Machine) (u : Session), n.PausedUntil (k.withLines rest).step ∧ k.Listens s u ∧
      u.reader = session.reader ∧ u.standing = (.paused, false) ∧
      session.Says u (m.shown s (Debug.assignments m.tape.size before)) ∧
      k.tape = (Debug.assignments m.tape.size before).foldl Tape.put m.tape := by
  obtain ⟨listens, live, reader, standing, told, tape, -⟩ := begins
  have lines : n.world.lines = before ++ rest := by
    simp only [World.lines, World.reader, listens.client, Option.map_some, Option.getD_some, reader, comes]
  have leads := listens.reads_on live (tape ▸ continues) rest
  rw [← lines, withLines_lines, tape] at leads
  obtain ⟨u, reads⟩ := listens.assigns live (congrArg Prod.fst standing)
    (Debug.assignments m.tape.size before)
  refine ⟨_, u, leads, reads.listens, reads.reader.trans reader, ?_, ?_, tape ▸ reads.tape⟩
  · have there : t.detached = false := (Prod.mk.inj standing).2
    rw [reads.standing, there]
  · have all := told.trans reads.told
    rw [shown_eq (m := m) tape] at all
    rw [head_shown]
    exact all

/-- The line that ends a pause is the last one that it reads. -/
theorem Begins.ends {t : Session} (begins : m.Begins s session n t)
    (comes : session.reader.pending = before ++ line :: rest)
    (continues : ∀ line ∈ before, Debug.continues m.tape.size line = true)
    (command : Debug.command? line = some c) (ends : c.ends m.tape.size = true) :
    ∃ (k : Machine) (u : Session), n.PausedUntil k ∧ k.phase ≠ .paused ∧
      k.tape = { (Debug.assignments m.tape.size before).foldl Tape.put m.tape with
        cursor := (c.target? m.tape.size).getD m.tape.cursor } ∧
      k.world.session = some u ∧ u.reader.pending = rest ∧ u.standing = (.running, false) ∧
      session.Says u (m.shown s (Debug.assignments m.tape.size before)) := by
  obtain ⟨k, u, leads, listens, reader, standing, told, tape⟩ := begins.reads_on comes continues
  obtain ⟨spoken, decoded⟩ := Debug.command?_eq_some.mp command
  obtain ⟨after, stepped, answers, -⟩ := listens.spoken spoken
  have size : k.tape.size = m.tape.size := tape ▸ Tape.size_foldl_put _ _
  obtain ⟨phase, world, moved⟩ := answer_ends (m := k) (size ▸ ends) s
  rw [stepped, answers c decoded] at leads
  have left : (k.answer s c).world.session = some u.resume := by
    rw [world, proceed, listens.client]
    rfl
  refine ⟨_, u.resume.withLines rest, leads, phase, ?_, ?_, rfl, ?_, ?_⟩
  · have same : ((k.answer s c).withLines rest).tape = (k.answer s c).tape := rfl
    rw [same, moved, size, tape, Tape.cursor_foldl_put]
  · rw [Machine.withLines, World.session_withLines, left, Option.map_some]
  · have same : (u.resume.withLines rest).standing = u.resume.standing := rfl
    obtain ⟨state, there⟩ := Prod.mk.inj standing
    rw [same, Session.standing_resume, if_pos state, there]
  · obtain ⟨chunks, mirrors, closable, closings⟩ := told
    unfold Session.resume
    split <;> exact ⟨chunks, mirrors, closable, closings⟩

/-- Where no line ends it, a pause ends with the client's stream, and the client counts as gone. -/
theorem Begins.gone {t : Session} (begins : m.Begins s session n t)
    (complete : session.reader.complete = true)
    (continues : ∀ line ∈ session.reader.pending, Debug.continues m.tape.size line = true) :
    ∃ (k : Machine) (u : Session), n.PausedUntil k ∧ k.phase = .ready ∧
      k.tape = (Debug.assignments m.tape.size session.reader.pending).foldl Tape.put m.tape ∧
      k.world.session = some u ∧ u.reader.pending = [] ∧ u.standing = (.running, true) ∧
      session.Says u (m.shown s (Debug.assignments m.tape.size session.reader.pending)) := by
  obtain ⟨k, u, leads, listens, reader, -, told, tape⟩ :=
    begins.reads_on (List.append_nil _).symm continues
  rw [listens.gone (reader ▸ complete)] at leads
  exact ⟨_, _, leads, rfl, tape, rfl, rfl, rfl, told.chunks, told.mirrors, told.closable, told.closings⟩

/-- While the client may still say more, a pause waits for it. -/
theorem Begins.waits {t : Session} (begins : m.Begins s session n t)
    (incomplete : session.reader.complete = false)
    (continues : ∀ line ∈ session.reader.pending, Debug.continues m.tape.size line = true) :
    ∃ (k : Machine) (u : Session), n.PausedUntil k ∧ k.phase = .paused ∧ k.step = k ∧
      k.tape = (Debug.assignments m.tape.size session.reader.pending).foldl Tape.put m.tape ∧
      k.world.session = some u ∧ u.reader.pending = [] ∧ u.standing = (.paused, false) ∧
      session.Says u (m.shown s (Debug.assignments m.tape.size session.reader.pending)) := by
  obtain ⟨k, u, leads, listens, reader, standing, told, tape⟩ :=
    begins.reads_on (List.append_nil _).symm continues
  have same := listens.waits (reader ▸ incomplete)
  rw [same] at leads
  obtain ⟨-, client⟩ := listens.hears []
  exact ⟨_, _, leads, listens.paused, same, tape, client, rfl, standing, told.chunks, told.mirrors,
    told.closable, told.closings⟩

end Machine
end TapeLang

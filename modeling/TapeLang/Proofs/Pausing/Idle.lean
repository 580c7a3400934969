import Mathlib.Data.List.Forall2
import TapeLang.Proofs.Pausing.Lines
import TapeLang.Proofs.Pausing.Marks

/-!
Idle lines in a client's stream. Leaving them out changes nothing in a run but the lines that are still to
be read (`Machine.stripped`): a step either is the step without them, or takes one of them away
(`Machine.stripped_step`). So two runs whose clients differ in idle lines only are the same at corresponding
moments and pause at the same statements, whatever others do in between (`Machine.Alike.acted`).
`Machine.pause_reads_lines` says so beside what a single pause reads.
-/
namespace TapeLang

open Source (Block Header Statement)
open Host (Line LineSource)
open Debug (Session isIdle)

namespace World

variable {v w : World} {lines : List Line} {cells : Nat}

/-- The world without the idle lines among those that are still to be read. -/
def stripped (cells : Nat) (w : World) : World :=
  w.withLines (w.lines.filter fun line => !isIdle cells line)

/-- The world when more lines have arrived. -/
def arrive (lines : List Line) (w : World) : World := w.withLines (w.lines ++ lines)

/-- Reading from the client, if there is one, does not fail. -/
def Reads (w : World) : Prop := w.reader.budget = none

/-- Changes that are the same but for idle lines, and after which reading does not fail. -/
structure Matching (cells : Nat) (f g : World → World) : Prop where
  same : ∀ v w, v.stripped cells = w.stripped cells → (f v).stripped cells = (g w).stripped cells
  first : ∀ w, w.Reads → (f w).Reads
  second : ∀ w, w.Reads → (g w).Reads

theorem stripped_withLines (w : World) (lines : List Line) (cells : Nat) :
    (w.withLines lines).stripped cells = w.withLines (lines.filter fun line => !isIdle cells line) := by
  obtain ⟨console, session, files, traffic, config, target, endpoints, listener, opened⟩ := w
  cases session <;> rfl

/-- Worlds that are the same without idle lines are the same but for their lines. -/
theorem eq_withLines_of_stripped (same : v.stripped cells = w.stripped cells) :
    w = v.withLines w.lines := by
  have lines : (w.stripped cells).withLines w.lines = w := by
    rw [stripped, withLines_withLines, withLines_lines]
  rw [← same, stripped, withLines_withLines] at lines
  exact lines.symm

theorem Reads.withLines (reads : w.Reads) (lines : List Line) : (w.withLines lines).Reads := by
  obtain ⟨console, session, files, traffic, config, target, endpoints, listener, opened⟩ := w
  cases session with
  | none => rfl
  | some session => exact reads

theorem stripped_arrive (lines : List Line) (w : World) : (w.arrive lines).stripped cells =
    (w.stripped cells).arrive (lines.filter fun line => !isIdle cells line) := by
  rw [arrive, stripped_withLines, List.filter_append]
  obtain ⟨console, session, files, traffic, config, target, endpoints, listener, opened⟩ := w
  cases session <;> rfl

/-- Lines that are the same but for idle ones may arrive. -/
theorem matching_arrive {other : List Line}
    (same : (lines.filter fun line => !isIdle cells line) = other.filter fun line => !isIdle cells line) :
    Matching cells (arrive lines) (arrive other) where
  same v w alike := by rw [stripped_arrive, stripped_arrive, alike, same]
  first _ reads := reads.withLines _
  second _ reads := reads.withLines _

/-- What reads nothing leaves the client's stream as it is. -/
theorem Reads.of_unread (reads : w.Reads) (unread : v.withReader w.reader = v) : v.Reads := by
  rw [← unread]
  obtain ⟨console, session, files, traffic, config, target, endpoints, listener, opened⟩ := v
  cases session with
  | none => rfl
  | some session => exact reads

end World

namespace Machine

variable {m n : Machine} {s : Statement} {session : Session} {lines : List Line}
  {fs gs : List (World → World)} {pauses later : List (Block.Site × Debug.Snapshot)}

/-- The machine without the idle lines among those that are still to be read. -/
def stripped (m : Machine) : Machine := { m with world := m.world.stripped m.tape.size }

theorem stripped_withLines (m : Machine) (lines : List Line) :
    (m.withLines lines).stripped = m.withLines (lines.filter fun line => !isIdle m.tape.size line) := by
  rw [stripped, withLines, World.stripped_withLines]
  rfl

theorem size_step (m : Machine) : m.step.tape.size = m.tape.size := step_tape.1

theorem Listens.lines_withLines (listens : m.Listens s session) (lines : List Line) :
    (m.withLines lines).world.lines = lines := by
  rw [World.lines, World.reader, (listens.hears lines).2]
  rfl

theorem Listens.reads_withLines (listens : m.Listens s session) (lines : List Line) :
    (m.withLines lines).world.Reads := by
  rw [World.Reads, World.reader, (listens.hears lines).2]
  exact listens.reads

/-! ## One step -/

/-- A step at a pause is the step without the idle lines, or takes away one of them. -/
theorem Listens.stripped_step (listens : m.Listens s session) (lines : List Line) :
    (m.withLines lines).step.world.Reads ∧
      ((m.withLines lines).step.stripped = (m.withLines lines).stripped.step ∨
        (m.withLines lines).step.stripped = (m.withLines lines).stripped ∧
          (m.withLines lines).step.world.lines.length < lines.length) := by
  induction lines with
  | nil =>
    rw [stripped_withLines, List.filter_nil]
    cases complete : session.reader.complete with
    | true =>
      rw [listens.gone complete]
      exact ⟨listens.reads, .inl rfl⟩
    | false =>
      rw [listens.waits complete, stripped_withLines]
      exact ⟨listens.reads_withLines [], .inl rfl⟩
  | cons line rest ih =>
    cases blank : Session.isBlankLine line with
    | true =>
      have left : (m.withLines (line :: rest)).stripped = (m.withLines rest).stripped := by
        rw [stripped_withLines, stripped_withLines, List.filter_cons]
        simp [isIdle, blank]
      rw [listens.blank blank, left]
      refine ih.imp_right (Or.imp_right (And.imp_right fun fewer => ?_))
      exact Nat.lt_succ_of_lt fewer
    | false =>
      obtain ⟨n, stepped, answers, unread⟩ := listens.spoken blank
      have reads : n.world.Reads := World.Reads.of_unread (by
        rw [World.Reads, World.reader, listens.client]
        exact listens.reads) unread
      rw [stepped]
      refine ⟨reads.withLines rest, ?_⟩
      cases idle : isIdle m.tape.size line with
      | true =>
        right
        have holds := idle
        simp only [isIdle, blank, Bool.false_or, Option.any_eq_true] at holds
        obtain ⟨c, command, idles⟩ := holds
        obtain ⟨-, decoded⟩ := Debug.command?_eq_some.mp command
        have same : n = m := (answers c decoded).trans (answer_idle idles s)
        rw [same, stripped_withLines, stripped_withLines, List.filter_cons, idle]
        refine ⟨rfl, ?_⟩
        rw [listens.lines_withLines]
        exact Nat.lt_succ_self _
      | false =>
        left
        have size : n.tape.size = m.tape.size := by
          have kept := size_step (m.withLines (line :: rest))
          rw [stepped] at kept
          exact kept
        rw [stripped_withLines, stripped_withLines, List.filter_cons, idle, size]
        exact (stepped _).symm

/-- Anywhere else a step reads nothing. -/
theorem stripped_step (reads : m.world.Reads) :
    m.step.world.Reads ∧ (m.step.stripped = m.stripped.step ∨ m.phase = .paused ∧
      m.step.stripped = m.stripped ∧ m.step.world.lines.length < m.world.lines.length) := by
  by_cases hears : m.phase = .paused ∧ (∃ s next, m.frame.rest.uncons? = some (s, next)) ∧
      ∃ session, m.world.session = some session
  · obtain ⟨paused, ⟨s, first⟩, session, client⟩ := hears
    have listens : m.Listens s session := by
      refine ⟨paused, first, client, ?_⟩
      rwa [World.Reads, World.reader, client] at reads
    have step := listens.stripped_step m.world.lines
    rw [withLines_lines] at step
    exact step.imp_right (Or.imp_right fun waits => ⟨paused, waits⟩)
  · have deaf : m.phase = .paused → m.frame.rest.uncons? = none ∨ m.world.session = none := by
      intro paused
      cases first : m.frame.rest.uncons? with
      | none => exact .inl rfl
      | some found =>
        right
        by_contra client
        obtain ⟨session, client⟩ := Option.ne_none_iff_exists'.mp client
        exact hears ⟨paused, ⟨found.1, found.2, first⟩, session, client⟩
    refine ⟨reads.of_unread (unread_of_withReader (withReader_step deaf)), .inl ?_⟩
    have same : m.step.withLines m.world.lines = m.step := by
      rw [← withLines_step deaf, withLines_lines]
    have without : m.stripped = m.withLines (m.world.lines.filter fun line => !isIdle m.tape.size line) :=
      rfl
    rw [without, withLines_step deaf, ← size_step, ← stripped_withLines, same]

theorem silent_of_phase (other : m.phase ≠ .arriving) : m.pausing = [] :=
  pausing_eq_nil fun _ visits => other visits.1

/-- What a step pauses at does not depend on the lines. -/
theorem pausing_stripped (m : Machine) : m.stripped.pausing = m.pausing := by
  by_cases arriving : m.phase = .arriving
  · have steps := withLines_step (m := m) (by simp [arriving])
      (m.world.lines.filter fun line => !isIdle m.tape.size line)
    have phase : m.stripped.step.phase = m.step.phase := congrArg (·.phase) steps
    unfold pausing
    rw [phase]
    rfl
  · rw [silent_of_phase arriving]
    exact silent_of_phase arriving

/-! ## Runs -/

/-- A run in which others act in these ways, in this order, at any time between two steps, with all that
it pauses at. -/
inductive Acted :
    Machine → List (World → World) → List (Block.Site × Debug.Snapshot) → Machine → Prop where
  | refl {m : Machine} : Acted m [] [] m
  | step {m n : Machine} {fs : List (World → World)} {pauses : List (Block.Site × Debug.Snapshot)}
      (run : Acted m.step fs pauses n) : Acted m fs (m.pausing ++ pauses) n
  | others {m n : Machine} {fs : List (World → World)} {pauses : List (Block.Site × Debug.Snapshot)}
      (f : World → World) (run : Acted { m with world := f m.world } fs pauses n) :
      Acted m (f :: fs) pauses n

theorem Acted.trans {k : Machine} (run : Acted m fs pauses n) (further : Acted n gs later k) :
    Acted m (fs ++ gs) (pauses ++ later) k := by
  induction run with
  | refl => exact further
  | step _ ih =>
    rw [List.append_assoc]
    exact (ih further).step
  | others f _ ih => exact (ih further).others f

/-- The step without idle lines comes once those before it are read. -/
theorem stripped_catches_up (reads : m.world.Reads) :
    ∃ n, Acted m [] m.pausing n ∧ n.world.Reads ∧ n.stripped = m.stripped.step := by
  induction fewer : m.world.lines.length using Nat.strongRecOn generalizing m with
  | ind length ih =>
    have once : Acted m [] m.pausing m.step := List.append_nil m.pausing ▸ Acted.refl.step
    obtain ⟨reads', same | ⟨paused, waits, less⟩⟩ := stripped_step reads
    · exact ⟨m.step, once, reads', same⟩
    · obtain ⟨n, further, reads'', same⟩ := ih _ (fewer ▸ less) reads' rfl
      have silent : m.pausing = [] := silent_of_phase (by simp [paused])
      have still : m.step.pausing = m.pausing := by rw [← pausing_stripped, waits, pausing_stripped]
      have run := once.trans further
      rw [still, silent] at run
      exact ⟨n, silent ▸ run, reads'', waits ▸ same⟩

/-! ## Two runs -/

/-- Machines that are the same but for idle lines. -/
structure Alike (m n : Machine) : Prop where
  same : m.stripped = n.stripped
  first : m.world.Reads
  second : n.world.Reads

theorem Alike.step (alike : m.Alike n) : ∃ l, Acted n [] m.pausing l ∧ m.step.Alike l := by
  obtain ⟨same, first, second⟩ := alike
  obtain ⟨first', stepped | ⟨paused, waits, -⟩⟩ := stripped_step first
  · obtain ⟨l, run, second', same'⟩ := stripped_catches_up second
    have pausing : n.pausing = m.pausing := by rw [← pausing_stripped, ← same, pausing_stripped]
    exact ⟨l, pausing ▸ run, by rw [stepped, same, same'], first', second'⟩
  · have silent : m.pausing = [] := silent_of_phase (by simp [paused])
    exact ⟨n, silent ▸ .refl, waits.trans same, first', second⟩

theorem Alike.world (alike : m.Alike n) : n = { m with world := n.world } ∧
    m.world.stripped m.tape.size = n.world.stripped m.tape.size := by
  have parts := alike.same
  obtain ⟨frame, outer, phase, tape, world, steering⟩ := n
  simp only [stripped, Machine.mk.injEq] at parts
  obtain ⟨rfl, rfl, rfl, rfl, worlds, rfl⟩ := parts
  exact ⟨rfl, worlds⟩

theorem Alike.eq_withLines (alike : m.Alike n) : n = m.withLines n.world.lines := by
  obtain ⟨same, worlds⟩ := alike.world
  rw [withLines, ← World.eq_withLines_of_stripped worlds]
  exact same

theorem Alike.others {f g : World → World} (alike : m.Alike n) (matching : World.Matching m.tape.size f g) :
    { m with world := f m.world }.Alike { n with world := g n.world } := by
  obtain ⟨same, worlds⟩ := alike.world
  refine ⟨?_, matching.first _ alike.first, matching.second _ alike.second⟩
  generalize n.world = world at same worlds ⊢
  rw [same]
  exact congrArg (fun world => { m with world }) (matching.same _ _ worlds)

/-- Whatever others do, if it is the same but for idle lines, so is the run. -/
theorem Alike.acted {k : Machine} (alike : m.Alike n) (run : Acted m fs pauses k)
    (matching : List.Forall₂ (World.Matching m.tape.size) fs gs) :
    ∃ l, Acted n gs pauses l ∧ k.Alike l := by
  induction run generalizing n gs with
  | refl =>
    obtain rfl := List.forall₂_nil_left_iff.mp matching
    exact ⟨n, .refl, alike⟩
  | step _ ih =>
    obtain ⟨n', first, alike'⟩ := alike.step
    obtain ⟨l, later, alike''⟩ := ih alike' ((size_step _).symm ▸ matching)
    exact ⟨l, first.trans later, alike''⟩
  | others f _ ih =>
    obtain ⟨g, gs, here, there, rfl⟩ := List.forall₂_cons_left_iff.mp matching
    obtain ⟨l, later, alike'⟩ := ih (alike.others here) there
    exact ⟨l, later.others g, alike'⟩

theorem acted_iterate (m : Machine) (k : Nat) :
    Acted m [] ((List.range k).flatMap fun i => (Machine.step^[i] m).pausing) (Machine.step^[k] m) := by
  induction k with
  | zero => exact .refl
  | succ k ih =>
    rw [List.range_succ, List.flatMap_append, Function.iterate_succ_apply']
    exact ih.trans (.step .refl)

/-! ## What a client's lines do -/

/-- A pause shows the state, reads up to the first line that ends it, or all lines where the stream ends
first, carries out the assignments among them and shows the state after each of them; a move that ends it
sets the cursor. Lines that do nothing may come anywhere: the run is the same but for what is still to be
read, and ends the same. -/
theorem pause_reads_lines :
    (∀ (m : Machine) (s : Statement) (session : Session), m.PausesHere → m.Visits s →
      m.world.session = some session → session.reader.budget = none → session.writer.budget = none →
      (∃ t, m.Begins s session m.step t) ∧
      (∀ before line rest c, session.reader.pending = before ++ line :: rest →
        (∀ line ∈ before, Debug.continues m.tape.size line = true) →
        Debug.command? line = some c → c.ends m.tape.size = true →
        ∃ (k : Machine) (u : Session), m.step.PausedUntil k ∧ k.phase ≠ .paused ∧
          k.tape = { (Debug.assignments m.tape.size before).foldl Tape.put m.tape with
            cursor := (c.target? m.tape.size).getD m.tape.cursor } ∧
          k.world.session = some u ∧ u.reader.pending = rest ∧ u.standing = (.running, false) ∧
          session.Says u (m.shown s (Debug.assignments m.tape.size before))) ∧
      ((∀ line ∈ session.reader.pending, Debug.continues m.tape.size line = true) →
        ∃ (k : Machine) (u : Session), m.step.PausedUntil k ∧
          (if session.reader.complete = true then k.phase = .ready ∧ u.standing = (.running, true)
            else k.phase = .paused ∧ k.step = k ∧ u.standing = (.paused, false)) ∧
          k.tape = (Debug.assignments m.tape.size session.reader.pending).foldl Tape.put m.tape ∧
          k.world.session = some u ∧ u.reader.pending = [] ∧
          session.Says u (m.shown s (Debug.assignments m.tape.size session.reader.pending)))) ∧
    ∀ (m : Machine) (lines lines' : List Line), m.world.Reads →
      ((lines.filter fun line => !isIdle m.tape.size line) =
        lines'.filter fun line => !isIdle m.tape.size line) →
      ∀ fs gs, List.Forall₂ (World.Matching m.tape.size) fs gs →
        ∀ pauses k, Acted (m.withLines lines) fs pauses k →
          ∃ rest, Acted (m.withLines lines') gs pauses (k.withLines rest) ∧
            ∀ path outcome, (k.withLines rest).conclude path outcome =
              ((k.conclude path outcome).1.withLines rest, (k.conclude path outcome).2) := by
  constructor
  · intro m s session pauses visits client reads writes
    obtain ⟨t, begins⟩ := pauses.begins visits client reads writes
    refine ⟨⟨t, begins⟩, fun before line rest c comes continues command ends =>
      begins.ends comes continues command ends, fun continues => ?_⟩
    cases complete : session.reader.complete with
    | true =>
      obtain ⟨k, u, until', phase, tape, client', read, standing, told⟩ := begins.gone complete continues
      exact ⟨k, u, until', ⟨phase, standing⟩, tape, client', read, told⟩
    | false =>
      obtain ⟨k, u, until', phase, waits, tape, client', read, standing, told⟩ :=
        begins.waits complete continues
      exact ⟨k, u, until', ⟨phase, waits, standing⟩, tape, client', read, told⟩
  · intro m lines lines' reads same fs gs matching pauses k run
    have alike : (m.withLines lines).Alike (m.withLines lines') :=
      ⟨by rw [stripped_withLines, stripped_withLines, same], reads.withLines lines, reads.withLines lines'⟩
    obtain ⟨l, run', alike'⟩ := alike.acted run matching
    rw [alike'.eq_withLines] at run'
    exact ⟨l.world.lines, run', fun path outcome => withLines_conclude k _ path outcome⟩

/-- A client that assigns and then moves, with idle lines in between: of the cells only the one assigned to
changes. The run is that of a client that says nothing else, whenever the move arrives. -/
theorem pause_reads_lines_idle :
    let s : Statement := .act ⟨⟨1, 1⟩, true⟩ .increment
    let unknown : Debug.Command := { operation := .ofString "jump" }
    let outside : Debug.Command := { operation := .ofString "move", cell := some 3 }
    let assigns : Debug.Command := { operation := .ofString "assign", cell := some 2, value := some 300 }
    let moves : Debug.Command := { operation := .ofString "move", cell := some 1 }
    let idle : List Line := [[32, 10], unknown.encode, outside.encode]
    let lines : List Line := idle ++ assigns.encode :: (idle ++ [moves.encode])
    let client : Session := { state := .running, reader := { pending := lines } }
    let m := start (.act ⟨⟨1, 1⟩, true⟩ .increment .nil) ⟨#[0, 0, 0], 0⟩ { session := some client }
    (∃ (n : Machine) (u : Session), m.step.PausedUntil n ∧ n.tape = ⟨#[0, 0, 44], 1⟩ ∧
      n.world.session = some u ∧ u.reader.pending = [] ∧ client.Says u (m.shown s [(2, 44)])) ∧
    (Machine.step^[9] m).phase = .halted .completed ∧ ∃ pauses rest, pauses.map Prod.fst = [[0]] ∧
      Acted (m.withLines [assigns.encode]) [World.arrive [moves.encode]] pauses
        ((Machine.step^[9] m).withLines rest) := by
  intro s unknown outside assigns moves idle lines client m
  have begun : m.phase = .arriving ∧ m.frame.rest.uncons? = some (s, .nil) ∧ m.step.phase ≠ .ready ∧
      m.world.session = some client ∧ m.tape = ⟨#[0, 0, 0], 0⟩ := by decide +kernel
  have ended : (Machine.step^[9] m).phase = .halted .completed ∧
      ((List.range 9).flatMap fun i => (Machine.step^[i] m).pausing).map Prod.fst = [[0]] := by
    decide +kernel
  have read : (∀ line ∈ idle ++ assigns.encode :: idle, Debug.continues 3 line = true) ∧
      Debug.command? moves.encode = some moves ∧ moves.ends 3 = true ∧ moves.target? 3 = some 1 ∧
      Debug.assignments 3 (idle ++ assigns.encode :: idle) = [(2, 44)] := by decide +kernel
  have same : (((idle ++ [assigns.encode]).filter fun line => !isIdle 3 line) =
        [assigns.encode].filter fun line => !isIdle 3 line) ∧
      (((idle ++ [moves.encode]).filter fun line => !isIdle 3 line) =
        [moves.encode].filter fun line => !isIdle 3 line) := by decide +kernel
  have run : Acted (m.withLines (idle ++ [assigns.encode])) [World.arrive (idle ++ [moves.encode])]
      ((List.range 9).flatMap fun i => (Machine.step^[i] m).pausing) (Machine.step^[9] m) :=
    .others _ (acted_iterate m 9)
  have reads : m.world.Reads := rfl
  -- from here on neither the machine nor the lines need be known
  clear_value m
  obtain ⟨arriving, first, pauses, connected, tape⟩ := begun
  obtain ⟨finished, paused⟩ := ended
  obtain ⟨continues, command, ends, target, assigned⟩ := read
  have size : m.tape.size = 3 := by rw [tape]; rfl
  obtain ⟨onePause, twoRuns⟩ := pause_reads_lines
  have visits : m.Visits s := ⟨arriving, .nil, first⟩
  refine ⟨?_, finished, ?_⟩
  · obtain ⟨-, ended, -⟩ := onePause m s client ⟨⟨s, visits⟩, pauses⟩ visits connected rfl rfl
    rw [size] at ended
    obtain ⟨n, u, until', -, moved, client', left, -, told⟩ :=
      ended (idle ++ assigns.encode :: idle) moves.encode [] moves rfl continues command ends
    rw [assigned, target, tape] at moved
    rw [assigned] at told
    exact ⟨n, u, until', moved, client', left, told⟩
  · obtain ⟨rest, run', -⟩ := twoRuns m (idle ++ [assigns.encode]) [assigns.encode] reads
      (size ▸ same.1) _ _ (.cons (size ▸ World.matching_arrive same.2) .nil) _ _ run
    exact ⟨_, rest, paused, run'⟩

end Machine
end TapeLang

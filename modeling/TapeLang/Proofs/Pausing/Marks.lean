import TapeLang.Proofs.Pausing.Over

/-!
Pauses where nothing was asked for. A client that only resumes and assigns leaves the marks alone in charge:
every marked statement that comes to act was paused at just before, and nothing else was (`Paired`), however
often it comes. The same holds from a resumption on, whatever was asked for before it, as long as execution
comes to no marked statement (`resumed_pauses_at_marks`).
-/
namespace TapeLang.Machine

open Source (Block Header Statement)
open Debug (Steering)

variable {m n k : Machine} {s t : Statement} {command : Debug.Command}

/-! ## What a run pauses at, and what acts -/

/-- What a step pauses at, and the snapshot there. -/
def pausing (m : Machine) : List (Block.Site × Debug.Snapshot) :=
  match m.phase, m.frame.rest.uncons? with
  | .arriving, some (s, _) => if m.step.phase = .ready then [] else [(m.site, m.snapshot s)]
  | _, _ => []

/-- The marked statement that comes to act with a step. -/
def marking (m : Machine) : List Block.Site :=
  match m.step.phase, m.step.frame.rest.uncons? with
  | .ready, some (s, _) => if m.phase ≠ .ready ∧ s.head.marked = true then [m.step.site] else []
  | _, _ => []

/-- A run that takes its steps from machines with a property, with all that it paused at and all marked
statements that came to act, in order. -/
inductive Logged (p : Machine → Prop) (m : Machine) :
    List (Block.Site × Debug.Snapshot) → List Block.Site → Machine → Prop where
  | refl : Logged p m [] [] m
  | step {pauses : List (Block.Site × Debug.Snapshot)} {marks : List Block.Site} {n : Machine}
      (run : Logged p m pauses marks n) (holds : p n) :
      Logged p m (pauses ++ n.pausing) (marks ++ n.marking) n.step
  | others {pauses : List (Block.Site × Debug.Snapshot)} {marks : List Block.Site} {n : Machine}
      (run : Logged p m pauses marks n) (world : World) (standing : world.standing = n.world.standing) :
      Logged p m pauses marks { n with world }

/-- A client is attached, and what it says at a pause is to resume, to assign, or is ignored. -/
def Unhurried (m : Machine) : Prop :=
  m.attached = true ∧ ∀ s command, m.Hears s command → ¬ m.AsksStep command ∧
    Debug.Operation.ofName? command.operation ≠ some .stepOver ∧
    Debug.Operation.ofName? command.operation ≠ some .stepOut

/-- Every pause was followed by the statement that it was before, but for one that goes on, or that the
program failed in. -/
def Paired (n : Machine) (pauses marks : List Block.Site) : Prop :=
  match n.phase with
  | .paused => pauses = marks ++ [n.site]
  | .arriving | .ready | .halted .completed => pauses = marks
  | .halted _ => pauses = marks ∨ pauses = marks ++ [n.site]

theorem site_of_place (same : n.place = m.place) : n.site = m.site := by
  rw [site, site, around, around, frame_of_place same, outer_of_place same]

theorem pausing_eq (visits : n.Visits s) :
    n.pausing = if n.step.phase = .ready then [] else [(n.site, n.snapshot s)] := by
  obtain ⟨arriving, next, first⟩ := visits
  simp only [pausing, arriving, first]

theorem pausing_eq_nil (unvisited : ∀ t, ¬ n.Visits t) : n.pausing = [] := by
  unfold pausing
  split
  next s next arriving first => exact absurd ⟨arriving, next, first⟩ (unvisited s)
  next => rfl

theorem marking_eq_nil (idle : n.phase = .ready ∨ n.step.phase ≠ .ready) : n.marking = [] := by
  unfold marking
  split
  next s next acts first => rw [if_neg fun ⟨other, _⟩ => idle.elim other fun not => not acts]
  next => rfl

theorem marking_eq (idle : n.phase ≠ .ready) (acts : n.step.phase = .ready)
    (place : n.step.place = n.place) {next : Block} (first : n.frame.rest.uncons? = some (s, next)) :
    n.marking = if s.head.marked = true then [n.site] else [] := by
  have site : n.step.site = n.site := site_of_place place
  rw [← frame_of_place place] at first
  simp only [marking, acts, first, idle, ne_eq, not_false_eq_true, true_and, site]

/-! ## Answers that ask for no step -/

/-- A pause goes on, or ends with the statement about to act and nothing asked for, or the program fails in
it. -/
structure Idles (m n : Machine) : Prop where
  place : n.place = m.place
  steering : n.steering = m.steering ∨ n.steering = {}
  phase : n.phase = .paused ∨ n.phase = .ready ∨
    ∃ outcome, outcome ≠ .completed ∧ n.phase = .halted outcome

theorem idles_showState {tape : Tape} (paused : m.phase = .paused) (s : Statement) :
    m.Idles (({ m with tape } : Machine).showState s) := by
  cases client : m.world.session with
  | none =>
    simp only [showState, withSession, client]
    exact ⟨rfl, .inl rfl, .inl paused⟩
  | some session =>
    obtain ⟨place, steering, phase, -⟩ := showState_shown (m := { m with tape }) client s
    refine ⟨place, .inl steering, ?_⟩
    rcases phase with paused | ⟨_, _, failed⟩
    · exact .inl paused
    · exact .inr (.inr ⟨_, Outcome.noConfusion, failed⟩)

theorem idles_answer (paused : m.phase = .paused) (s : Statement) (slow : ¬ m.AsksStep command)
    (other : Debug.Operation.ofName? command.operation ≠ some .stepOver)
    (out : Debug.Operation.ofName? command.operation ≠ some .stepOut) :
    m.Idles (m.answer s command) := by
  have ignored : m.Idles m := ⟨rfl, .inl rfl, .inl paused⟩
  unfold Machine.answer
  split
  next => exact ignored
  next steps => exact absurd (.inl steps) slow
  next steps => exact absurd steps other
  next moves =>
    split
    next tape sought =>
      obtain ⟨cell, named, there⟩ := Option.map_eq_some_iff.mp sought
      refine absurd (.inr ⟨moves, cell, named, ?_⟩) slow
      unfold Tape.seek at there
      split at there
      next index found => simp [Tape.inRange, found]
      next => simp at there
    next => exact ignored
  next => exact ⟨rfl, .inr rfl, .inr (.inl rfl)⟩
  next leaves => exact absurd leaves out
  next =>
    split
    · split
      · exact idles_showState paused s
      · exact ignored
    · exact ignored

theorem Unhurried.idles (unhurried : n.Unhurried) (paused : n.phase = .paused) {next : Block}
    (first : n.frame.rest.uncons? = some (s, next)) : n.Idles n.step := by
  obtain ⟨attached, plain⟩ := unhurried
  cases client : n.world.session with
  | none => simp [Machine.attached, client] at attached
  | some session =>
    have stepped : n.step = n.hear s := by simp only [Machine.step, paused, first]
    cases heard : session.readCommand.1 with
    | command c =>
      obtain ⟨slow, other, out⟩ := plain s c ⟨paused, ⟨next, first⟩, session, client, heard⟩
      have answered : n.step = ({ n with
          world := { n.world with session := some session.readCommand.2 } } : Machine).answer s c := by
        simp only [stepped, hear, withSession, client, heard]
      have idles := idles_answer (m := { n with
        world := { n.world with session := some session.readCommand.2 } }) paused s slow other out
      rw [← answered] at idles
      exact ⟨idles.place, idles.steering, idles.phase⟩
    | waiting =>
      simp only [stepped, hear, withSession, client, heard]
      exact ⟨rfl, .inl rfl, .inl paused⟩
    | gone =>
      simp only [stepped, hear, withSession, client, heard]
      exact ⟨rfl, .inr rfl, .inr (.inl rfl)⟩
    | failed error =>
      simp only [stepped, hear, withSession, client, heard]
      exact ⟨rfl, .inl rfl, .inr (.inr ⟨_, by simp, rfl⟩)⟩
    | refused fault =>
      simp only [stepped, hear, withSession, client, heard]
      cases fault <;> exact ⟨rfl, .inl rfl, .inr (.inr ⟨_, by simp, rfl⟩)⟩

/-! ## Runs -/

/-- Nothing is asked for, and what the run paused at is what came to act; a pause is at a marked statement. -/
structure Keeps (n : Machine) (pauses marks : List Block.Site) : Prop where
  guided : n.Guided
  clear : n.steering = {}
  paired : n.Paired pauses marks
  marked : n.phase = .paused → ∀ s next, n.frame.rest.uncons? = some (s, next) → s.head.marked = true

variable {pauses marks : List Block.Site}

/-- With nothing asked for, a client that is there is shown the marked statements. -/
theorem pauses_iff_marked (attached : n.attached = true) (clear : n.steering = {}) (visits : n.Visits s) :
    n.PausesHere ↔ s.head.marked = true := by
  rw [pauses_iff visits, clear]
  simp [attached, Steering.shouldPause, Steering.isArmed]

theorem Keeps.visit (keeps : n.Keeps pauses marks) (attached : n.attached = true) (visits : n.Visits s) :
    n.step.Keeps (pauses ++ n.pausing.map Prod.fst) (marks ++ n.marking) := by
  obtain ⟨arriving, next, first⟩ := id visits
  have paired : pauses = marks := by
    have paired := keeps.paired
    rwa [Paired, arriving] at paired
  have idle : n.phase ≠ .ready := by simp [arriving]
  have looks := looks_step visits
  have marked := pauses_iff_marked attached keeps.clear visits
  cases looks with
  | passes place ready _ _ unarmed =>
    have unarmed := unarmed attached
    rw [keeps.clear, Steering.shouldPause] at unarmed
    obtain ⟨unmarked, clear⟩ := Prod.mk.inj unarmed
    have unmarked : s.head.marked = false := by simpa [Steering.isArmed] using unmarked
    rw [pausing_eq visits, marking_eq idle ready place first, if_pos ready, unmarked]
    refine ⟨keeps.guided.step, clear.symm, ?_, by simp [ready]⟩
    simpa [Paired, ready] using paired
  | pauses place phase _ _ _ steering =>
    have stopped : n.step.phase ≠ .ready := by
      rcases phase with phase | ⟨_, _, phase⟩ <;> simp [phase]
    have here : s.head.marked = true := marked.mp ⟨⟨s, visits⟩, stopped⟩
    have site : n.step.site = n.site := site_of_place place
    have clear : n.step.steering = {} := by
      rw [steering, keeps.clear]
      rfl
    rw [pausing_eq visits, marking_eq_nil (.inr stopped), if_neg stopped, paired]
    refine ⟨keeps.guided.step, clear, ?_, fun _ t rest first' => ?_⟩
    · rcases phase with phase | ⟨_, _, phase⟩ <;> simp [Paired, phase, site]
    · rw [frame_of_place place, first] at first'
      obtain ⟨rfl, -⟩ := Prod.mk.inj (Option.some.inj first')
      exact here

/-- Where no statement is looked at and no command heard, nothing is asked for and no pause begins. -/
theorem clear_of_unvisited (guided : n.Guided) (clear : n.steering = {}) (unpaused : n.phase ≠ .paused)
    (unvisited : ∀ t, ¬ n.Visits t) :
    n.step.steering = {} ∧ n.step.attached = n.attached ∧ n.step.phase ≠ .paused ∧
      (n.phase = .ready ∨ n.step.phase ≠ .ready) := by
  cases phase : n.phase with
  | paused => exact absurd phase unpaused
  | halted outcome =>
    have same : n.step = n := by simp only [Machine.step, phase]
    rw [same]
    exact ⟨clear, rfl, unpaused, .inr (by simp [phase])⟩
  | arriving =>
    have first : n.frame.rest.uncons? = none :=
      Option.eq_none_iff_forall_not_mem.mpr fun found first =>
        unvisited found.1 ⟨phase, found.2, first⟩
    have ends : n.step = n.endBlock := by simp only [Machine.step, phase, first]
    obtain ⟨goes, steering, world⟩ := ends_endBlock guided.placed phase
    rw [← ends] at goes steering world
    refine ⟨?_, by rw [Machine.attached, Machine.attached, world], ?_⟩
    · rw [steering, clear]
      rfl
    · cases goes with
      | halts _ _ phase => simp [phase]
      | again _ _ phase | leaves _ _ _ _ phase => simp [phase]
  | ready =>
    have acts : n.step = n.act := by simp only [Machine.step, phase]
    have attached : n.step.attached = n.attached := attached_congr (acts ▸ standing_act)
    have does := does_act guided.placed phase
    rw [← acts] at does
    cases does with
    | stays _ steering goes =>
      refine ⟨steering.trans clear, attached, ?_, .inl rfl⟩
      rcases goes with goes | ⟨_, _, goes⟩ <;> simp [goes]
    | past _ _ _ arriving steering | enters _ _ _ arriving steering =>
      exact ⟨steering.trans clear, attached, by simp [arriving], .inl rfl⟩

theorem unvisited_of_phase (elsewhere : n.phase ≠ .arriving) (t : Statement) : ¬ n.Visits t :=
  fun visits => elsewhere visits.1

theorem Keeps.unvisited (keeps : n.Keeps pauses marks) (going : n.phase = .arriving ∨ n.phase = .ready)
    (unvisited : ∀ t, ¬ n.Visits t) :
    n.step.Keeps (pauses ++ n.pausing.map Prod.fst) (marks ++ n.marking) := by
  have paired : pauses = marks := by
    have paired := keeps.paired
    rcases going with phase | phase <;> rwa [Paired, phase] at paired
  obtain ⟨clear, -, unpaused, idle⟩ := clear_of_unvisited keeps.guided keeps.clear
    (by rcases going with phase | phase <;> simp [phase]) unvisited
  rw [pausing_eq_nil unvisited, marking_eq_nil idle]
  refine ⟨keeps.guided.step, clear, ?_, fun paused => absurd paused unpaused⟩
  unfold Paired
  split <;> simp_all

theorem Keeps.step (keeps : n.Keeps pauses marks) (unhurried : n.Unhurried) :
    n.step.Keeps (pauses ++ n.pausing.map Prod.fst) (marks ++ n.marking) := by
  cases phase : n.phase with
  | halted outcome =>
    have same : n.step = n := by simp only [Machine.step, phase]
    rw [pausing_eq_nil (unvisited_of_phase (by simp [phase])),
      marking_eq_nil (.inr (by simp [same, phase])), same]
    simpa using keeps
  | arriving =>
    by_cases visits : ∃ t, n.Visits t
    · obtain ⟨t, visits⟩ := visits
      exact keeps.visit unhurried.1 visits
    · exact keeps.unvisited (.inl phase) (not_exists.mp visits)
  | ready => exact keeps.unvisited (.inr phase) (unvisited_of_phase (by simp [phase]))
  | paused =>
    obtain ⟨s, next, first⟩ := keeps.guided.placed.standing (.inl phase)
    obtain ⟨place, steering, goes⟩ := unhurried.idles phase first
    have marked := keeps.marked phase s next first
    have paired : pauses = marks ++ [n.site] := by
      have paired := keeps.paired
      rwa [Paired, phase] at paired
    have site : n.step.site = n.site := site_of_place place
    have clear : n.step.steering = {} := steering.elim (·.trans keeps.clear) id
    rw [pausing_eq_nil (unvisited_of_phase (by simp [phase])), List.map_nil, List.append_nil]
    rcases goes with waits | ready | ⟨outcome, other, failed⟩
    · rw [marking_eq_nil (.inr (by simp [waits])), List.append_nil]
      refine ⟨keeps.guided.step, clear, ?_, fun _ => ?_⟩
      · simpa [Paired, waits, site] using paired
      · rw [frame_of_place place]
        exact keeps.marked phase
    · rw [marking_eq (by simp [phase]) ready place first, if_pos marked]
      refine ⟨keeps.guided.step, clear, ?_, by simp [ready]⟩
      simpa [Paired, ready] using paired
    · rw [marking_eq_nil (.inr (by simp [failed])), List.append_nil]
      refine ⟨keeps.guided.step, clear, ?_, by simp [failed]⟩
      unfold Paired
      rw [failed]
      split <;> simp_all

theorem Keeps.others {world : World} (keeps : n.Keeps pauses marks)
    (stands : world.standing = n.world.standing) : { n with world }.Keeps pauses marks :=
  ⟨keeps.guided.turn (.others world stands), keeps.clear, keeps.paired, keeps.marked⟩

theorem Logged.keeps {program : Block} {tape : Tape} {world : World}
    {pauses : List (Block.Site × Debug.Snapshot)} (fresh : ¬ world.ShowsPause)
    (run : Logged Unhurried (start program tape world) pauses marks n) :
    n.Keeps (pauses.map Prod.fst) marks := by
  induction run with
  | refl => exact ⟨guided_start fresh, rfl, rfl, by simp [start]⟩
  | step _ unhurried keeps =>
    rw [List.map_append]
    exact keeps.step unhurried
  | others _ world stands keeps => exact keeps.others stands

/-! ## After a resumption -/

/-- A client is there and asked for nothing, and the run is not paused. -/
structure Resumed (n : Machine) : Prop where
  guided : n.Guided
  attached : n.attached = true
  clear : n.steering = {}
  unpaused : n.phase ≠ .paused

theorem Resumed.step (resumed : n.Resumed) (unmarked : ∀ t, n.Visits t → t.head.marked = false) :
    n.step.Resumed := by
  obtain ⟨guided, attached, clear, unpaused⟩ := resumed
  by_cases visits : ∃ t, n.Visits t
  · obtain ⟨t, visits⟩ := visits
    cases looks_step visits with
    | passes _ ready stands _ unarmed =>
      have unarmed := unarmed attached
      rw [clear, Steering.shouldPause] at unarmed
      exact ⟨guided.step, (attached_congr stands).trans attached, (Prod.mk.inj unarmed).2.symm,
        by simp [ready]⟩
    | pauses _ phase =>
      have stopped : n.step.phase ≠ .ready := by
        rcases phase with phase | ⟨_, _, phase⟩ <;> simp [phase]
      have marked := (pauses_iff_marked attached clear visits).mp ⟨⟨t, visits⟩, stopped⟩
      simp [unmarked t visits] at marked
  · obtain ⟨clear, still, unpaused, -⟩ :=
      clear_of_unvisited guided clear unpaused (not_exists.mp visits)
    exact ⟨guided.step, still.trans attached, clear, unpaused⟩

theorem Resumed.through (resumed : k.Resumed)
    (through : Through (fun n => ∀ t, n.Visits t → t.head.marked = false) k n) : n.Resumed := by
  refine through.keeps (q := Resumed) (fun n unmarked resumed => resumed.step unmarked) ?_ resumed
  intro n world stands resumed
  exact ⟨resumed.guided.turn (.others world stands), (attached_congr stands).trans resumed.attached,
    resumed.clear, resumed.unpaused⟩

/-! ## What a pause shows -/

theorem snapshot_tape (m : Machine) (s : Statement) :
    (m.snapshot s).cursor = m.tape.cursor ∧
      (m.snapshot s).tape = (m.tape.cells.toList.take 100).map fun cell => (cell.toNat : Int) := by
  refine ⟨rfl, ?_⟩
  have window : m.tape.window Tape.windowSize = m.tape.cells.toList.take 100 := by
    simp [Tape.window, Tape.windowSize]
  rw [snapshot, window]

/-- A state that is shown is a message to the client. -/
theorem chunks_showState {session : Debug.Session} (client : m.world.session = some session)
    (shown : (m.showState s).phase = .paused) :
    ∃ later : Debug.Session, (m.showState s).world.session = some later ∧
      later.writer.chunks = (Debug.ServerMessage.state (m.snapshot s)).encode :: session.writer.chunks := by
  simp only [showState, withSession, client, Debug.Session.sendState, Debug.Session.send,
    Host.Sink.write] at shown ⊢
  cases spent : Host.spend session.writer.budget with
  | none => simp [spent, halt] at shown
  | some left => exact ⟨_, rfl, rfl⟩

theorem PausesHere.shows (pauses : n.PausesHere) (visits : n.Visits s) (stopped : n.step.phase = .paused) :
    ∃ before after : Debug.Session, n.world.session = some before ∧ n.step.world.session = some after ∧
      after.writer.chunks = (Debug.ServerMessage.state (n.snapshot s)).encode :: before.writer.chunks := by
  obtain ⟨attached, armed⟩ := (pauses_iff visits).mp pauses
  obtain ⟨arriving, next, first⟩ := visits
  cases client : n.world.session with
  | none => simp [Machine.attached, client] at attached
  | some session =>
    have stepped : n.step = { n with
        steering := (n.steering.shouldPause n.site s.head.marked).2.entered n.site }.showState s := by
      simp only [Machine.step, arriving, first, look, attached, armed, ↓reduceIte]
    rw [stepped] at stopped ⊢
    obtain ⟨later, after, chunks⟩ := chunks_showState (m := { n with
      steering := (n.steering.shouldPause n.site s.head.marked).2.entered n.site }) client stopped
    exact ⟨session, later, rfl, after, chunks⟩

/-- A resumption lets the statement act, with nothing asked for. -/
theorem Hears.resume (hears : m.Hears s command)
    (resumes : Debug.Operation.ofName? command.operation = some .resume) :
    m.step.phase = .ready ∧ m.step.steering = {} ∧ m.step.attached = m.attached := by
  obtain ⟨world, stands, stepped⟩ := hears.answer
  rw [stepped, Machine.answer, resumes]
  exact ⟨rfl, rfl, attached_proceed.trans (attached_congr stands)⟩

/-- While the client is attached, and resumes, assigns or is ignored, a run pauses at the marked statements
that come to act, at each one every time and at no other, and each pause shows the cursor and the first
hundred cells as the statement finds them. From a resumption on, whatever was asked for before it, the run
does not pause until execution comes to a marked statement. -/
theorem resumed_pauses_at_marks {program : Block} {tape : Tape} {world : World}
    (fresh : ¬ world.ShowsPause) :
    (∀ n pauses marks, Logged Unhurried (start program tape world) pauses marks n →
      n.Paired (pauses.map Prod.fst) marks) ∧
    (∀ n s, (start program tape world).Later n → n.Visits s → n.PausesHere →
      n.pausing = [(n.site, n.snapshot s)] ∧ (n.snapshot s).cursor = n.tape.cursor ∧
      (n.snapshot s).tape = (n.tape.cells.toList.take 100).map (fun cell => (cell.toNat : Int)) ∧
      (n.step.phase = .paused → ∃ before after : Debug.Session, n.world.session = some before ∧
        n.step.world.session = some after ∧ after.writer.chunks =
          (Debug.ServerMessage.state (n.snapshot s)).encode :: before.writer.chunks)) ∧
    ∀ m s command, (start program tape world).Later m → m.Hears s command →
      Debug.Operation.ofName? command.operation = some .resume →
      ∀ n, Through (fun k => ∀ t, k.Visits t → t.head.marked = false) m.step n →
        n.phase ≠ .paused ∧ ∀ t, n.Visits t → (n.PausesHere ↔ t.head.marked = true) := by
  refine ⟨fun n pauses marks run => (run.keeps fresh).paired, ?_, ?_⟩
  · intro n s _ visits pauses
    obtain ⟨cursor, cells⟩ := n.snapshot_tape s
    refine ⟨?_, cursor, cells, pauses.shows visits⟩
    rw [pausing_eq visits, if_neg pauses.2]
  · intro m s command reached hears resumes n through
    have guided := (guided_start fresh).later reached
    obtain ⟨ready, clear, attached⟩ := hears.resume resumes
    have resumed : m.step.Resumed :=
      ⟨guided.step, attached.trans (guided.paused hears.1).1, clear, by simp [ready]⟩
    have later := resumed.through through
    exact ⟨later.unpaused, fun t visits => pauses_iff_marked later.attached later.clear visits⟩

/-- The log of a machine by itself. -/
theorem logged_iterate {p : Machine → Prop} (k : Nat) (holds : ∀ i < k, p (Machine.step^[i] m)) :
    Logged p m ((List.range k).flatMap fun i => (Machine.step^[i] m).pausing)
      ((List.range k).flatMap fun i => (Machine.step^[i] m).marking) (Machine.step^[k] m) := by
  induction k with
  | zero => exact .refl
  | succ k ih =>
    have run := (ih fun i fewer => holds i (by omega)).step (holds k (by omega))
    rw [List.range_succ, List.flatMap_append, List.flatMap_append, Function.iterate_succ_apply']
    simpa using run

/-- A mark in a loop that runs twice, and a client that resumes both times. -/
theorem resumed_pauses_at_marks_twice :
    let program : Block := .act ⟨⟨1, 1⟩, false⟩ .increment <| .act ⟨⟨1, 2⟩, false⟩ .increment <|
      .loop ⟨⟨1, 3⟩, false⟩ (.act ⟨⟨1, 9⟩, true⟩ .decrement .nil) .nil
    let command : Debug.Command := { operation := .ofString "resume" }
    let client : Debug.Session :=
      { state := .running, reader := { pending := [command.encode, command.encode] } }
    let m := start program ⟨#[0], 0⟩ { session := some client }
    ¬ World.ShowsPause { session := some client } ∧
      ∃ pauses marks, Logged Unhurried m pauses marks (step^[15] m) ∧
        (step^[15] m).phase = .halted .completed ∧ marks = [[0, 2], [0, 2]] ∧
        pauses.map Prod.fst = marks := by
  intro program command client m
  have fresh : ¬ World.ShowsPause { session := some client } :=
    World.not_showsPause rfl (by simp [client])
  have paired : ∀ n pauses marks, Logged Unhurried m pauses marks n →
      n.Paired (pauses.map Prod.fst) marks := (resumed_pauses_at_marks fresh).1
  have checked : (∀ i < 15, (step^[i] m).attached = true ∧ ((step^[i] m).phase = .paused →
        (step^[i] m).world.session.map (·.readCommand.1) = some (.command command))) ∧
      (step^[15] m).phase = .halted .completed ∧
      (List.range 15).flatMap (fun i => (step^[i] m).marking) = [[0, 2], [0, 2]] := by
    decide +kernel
  have resumes : Debug.Operation.ofName? command.operation = some .resume := by decide +kernel
  -- from here on the machine need not be known
  clear_value m
  obtain ⟨stands, ended, marks⟩ := checked
  have unhurried (i : Nat) (fewer : i < 15) : (step^[i] m).Unhurried := by
    obtain ⟨attached, hears⟩ := stands i fewer
    refine ⟨attached, ?_⟩
    rintro s other ⟨paused, -, session, client, heard⟩
    have said := hears paused
    rw [client, Option.map_some, heard] at said
    obtain rfl := Debug.Heard.command.inj (Option.some.inj said)
    simp [AsksStep, resumes]
  have run := logged_iterate 15 unhurried
  have pairs := paired _ _ _ run
  rw [Paired, ended] at pairs
  exact ⟨fresh, _, _, run, ended, marks, pairs⟩

end TapeLang.Machine

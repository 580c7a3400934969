import TapeLang.Proofs.Delivery.Switching
import TapeLang.Proofs.Pausing.Over
import TapeLang.Proofs.Reporting

/-!
Stepping out. Each frame stands inside the loop that the frame around it is at (`Nested`), so leaving a
frame is leaving that loop, and no other. A step out does so at once, without a look at the cell, and all
that is asked for from then on is a pause at the first statement that execution comes to; in the outermost
block it is the program that is left (`step_out_leaves`).
-/
namespace TapeLang.Machine

open Source (Block Header Statement)
open Debug (Steering)

variable {m n k : Machine} {s t : Statement} {command : Debug.Command}

/-! ## Frames inside loops -/

/-- The frame around each block stands at the loop that the block is the body of. -/
inductive Nested : List Frame → Prop where
  | outermost (f : Frame) : Nested [f]
  | inside {f parent : Frame} {outer : List Frame} {head : Header} {next : Block}
      (loop : parent.rest = .loop head f.block next) (around : Nested (parent :: outer)) :
      Nested (f :: parent :: outer)

/-- Where execution stands in its block does not matter. -/
theorem Nested.of_block {f g : Frame} {outer : List Frame} (nested : Nested (f :: outer))
    (same : g.block = f.block) : Nested (g :: outer) := by
  cases nested with
  | outermost => exact .outermost g
  | inside loop around => exact .inside (same ▸ loop) around

theorem Nested.outer {f parent : Frame} {outer : List Frame} (nested : Nested (f :: parent :: outer)) :
    Nested (parent :: outer) := by
  cases nested with
  | inside _ around => exact around

theorem Nested.loop {f parent : Frame} {outer : List Frame} (nested : Nested (f :: parent :: outer)) :
    ∃ head next, parent.rest = .loop head f.block next := by
  cases nested with
  | inside loop _ => exact ⟨_, _, loop⟩

/-- However control moves, it stays inside the loops. -/
theorem Moves.nested (moves : m.Moves n) (nested : Nested m.place) : Nested n.place := by
  unfold Machine.place at nested ⊢
  cases moves with
  | stay frame outer => rwa [frame, outer]
  | past _ frame outer =>
    rw [frame, outer]
    exact nested.of_block rfl
  | enter first frame outer =>
    rw [frame, outer]
    exact .inside first nested
  | again frame outer =>
    rw [frame, outer]
    exact nested.of_block rfl
  | leave around _ frame outer =>
    rw [around] at nested
    rw [frame, outer]
    exact nested.outer.of_block rfl
  | up around frame outer =>
    rw [around] at nested
    rw [frame, outer]
    exact nested.outer

theorem Later.nested (later : m.Later n) (nested : Nested m.place) : Nested n.place := by
  refine later.keeps (q := fun n => Nested n.place) ?_ nested
  intro m n turn nested
  cases turn with
  | step => exact goes_step.moves.nested nested
  | others => exact nested

/-! ## Leaving -/

theorem stepOut_tape (m : Machine) : m.stepOut.tape = m.tape := by
  unfold stepOut
  dsimp only [proceed]
  split
  · rfl
  · split <;> rfl

theorem stepOut_outermost (outermost : m.outer = []) : m.stepOut.phase = .halted .steppedOut := by
  simp only [stepOut, proceed, outermost, halt]

theorem stepOut_inside {parent : Frame} {outer : List Frame} {next : Block}
    (around : m.outer = parent :: outer) (first : parent.rest.uncons? = some (t, next)) :
    m.stepOut.place = parent.past next :: outer ∧ m.stepOut.phase = .arriving ∧
      m.stepOut.steering = { countdown := 1 } := by
  simp only [stepOut, proceed, around, first]
  exact ⟨rfl, rfl, rfl⟩

/-- A step out that is heard is taken once the session has read it. -/
theorem Hears.stepOut (hears : m.Hears s command)
    (out : Debug.Operation.ofName? command.operation = some .stepOut) :
    ∃ session, m.world.session = some session ∧ m.step =
      { m with world := { m.world with session := some session.readCommand.2 } }.stepOut := by
  obtain ⟨paused, ⟨next, first⟩, session, client, heard⟩ := hears
  refine ⟨session, client, ?_⟩
  simp only [Machine.step, paused, first, hear, withSession, client, heard, Machine.answer, out]

/-- As long as execution comes to no statement it only goes outwards, or on in the same block. -/
theorem Through.outwards (through : Through (fun n => ∀ t, ¬ n.Visits t) k n) (due : k.Due)
    (guided : k.Guided) : n.outer <:+ k.outer := by
  refine (through.keeps (q := fun n => (n.Guided ∧ n.Due) ∧ n.outer <:+ k.outer) ?_ ?_
    ⟨⟨guided, due⟩, List.suffix_refl _⟩).2
  · rintro n unvisited ⟨⟨guided, due⟩, inside⟩
    refine ⟨⟨guided.step, due.step guided unvisited⟩, ?_⟩
    rcases due.phase with phase | ⟨outcome, phase⟩
    · cases first : n.frame.rest.uncons? with
      | some found => exact absurd ⟨phase, found.2, first⟩ (unvisited found.1)
      | none =>
        have ends : n.step = n.endBlock := by simp only [Machine.step, phase, first]
        have goes := (ends_endBlock guided.placed phase).1
        rw [← ends] at goes
        cases goes with
        | halts place => rwa [outer_of_place place]
        | again _ outer => rwa [outer]
        | leaves around _ _ out =>
          rw [around] at inside
          rw [out]
          exact (List.suffix_cons _ _).trans inside
    · have same : n.step = n := by simp only [Machine.step, phase]
      rwa [same]
  · rintro n world stands ⟨⟨guided, due⟩, inside⟩
    exact ⟨⟨guided.turn (.others world stands), due.others stands⟩, inside⟩

theorem Due.undispatched (due : n.Due) : n.dispatch? = none := by
  rcases due.phase with phase | ⟨outcome, phase⟩ <;> simp only [dispatch?, phase]

/-- The end of a run that was left is told to nobody. -/
theorem conclude_steppedOut (m : Machine) (path : String) :
    (m.conclude path .steppedOut).1.console = m.world.console ∧
      (m.conclude path .steppedOut).1.session = m.world.session := by
  have closed := Delivery.closeListener_elsewhere m.world
  have same : (m.conclude path .steppedOut).1 = m.world.close.1 := by
    simp only [conclude, settleOutcome, World.release]
    split <;> simp_all
  rw [same, World.close]
  dsimp only
  split
  · rw [closed]
    exact ⟨rfl, rfl⟩
  · dsimp only
    rw [closed]
    exact ⟨rfl, rfl⟩

/-- A step out at a pause, in any run. It touches neither the tape nor anything of the world but the session.
The loop around the statement is left at once, whatever its cell holds, and no other one is; what was asked
for before is forgotten. From then on no statement acts before execution comes to one, in the block of the
loop or in one around it, and there the run pauses. In the outermost block the run ends instead: no
statement acts any more, nothing is reported, and the exit code is zero. -/
theorem step_out_leaves {program : Block} {tape : Tape} {world : World}
    (fresh : ¬ world.ShowsPause) (reached : (start program tape world).Later m)
    (hears : m.Hears s command)
    (out : Debug.Operation.ofName? command.operation = some .stepOut) :
    m.step.tape = m.tape ∧
    (∃ session, m.world.session = some session ∧
      m.step.world = { m.world with session := some session.readCommand.2.resume }) ∧
    (∀ parent outer, m.outer = parent :: outer →
      (∃ head next, parent.rest = .loop head m.frame.block next ∧
        m.step.place = parent.past next :: outer) ∧
      m.step.steering = { countdown := 1 } ∧
      ∀ n, Through (fun k => ∀ t, ¬ k.Visits t) m.step n →
        n.dispatch? = none ∧ n.outer <:+ outer ∧ ∀ t, n.Visits t → n.PausesHere) ∧
    (m.outer = [] → ∀ n, m.step.Later n →
      n.outcome? = some .steppedOut ∧ n.tape = m.tape ∧ n.dispatch? = none ∧
      ∀ path, (n.conclude path .steppedOut).1.console = n.world.console ∧
        (n.conclude path .steppedOut).1.session = n.world.session ∧
        (Delivery.Tidy n.world → (n.conclude path .steppedOut).2 = .ok 0)) := by
  have guided : m.Guided := (guided_start fresh).later reached
  have nested : Nested m.place := reached.nested (.outermost _)
  obtain ⟨session, client, stepped⟩ := hears.stepOut out
  have tape' : m.step.tape = m.tape := stepped ▸ stepOut_tape _
  have left : m.step.world = { m.world with session := some session.readCommand.2.resume } :=
    stepped ▸ stepOut_world _
  refine ⟨tape', ⟨session, client, left⟩, ?_, ?_⟩
  · intro parent outer around
    rw [Machine.place, around] at nested
    obtain ⟨head, next, loop⟩ := nested.loop
    have first : parent.rest.uncons? = some (.loop head m.frame.block, next) := by rw [loop]; rfl
    obtain ⟨place, phase, steering⟩ : m.step.place = parent.past next :: outer ∧
        m.step.phase = .arriving ∧ m.step.steering = { countdown := 1 } := by
      rw [stepped]
      exact stepOut_inside around first
    refine ⟨⟨head, next, loop, place⟩, steering, fun n unvisited => ?_⟩
    have due : m.step.Due := by
      refine ⟨?_, .inl phase, .inl (by rw [steering])⟩
      -- without a client nothing would be asked for
      by_contra alone
      simp [guided.step.lone (Bool.eq_false_iff.mpr alone)] at steering
    have within := unvisited.outwards due guided.step
    rw [(List.cons.inj place).2] at within
    have due := due.through guided.step unvisited
    exact ⟨due.undispatched, within, fun t visits => due.pauses visits⟩
  · intro outermost n later
    have ended : m.step.phase = .halted .steppedOut := by
      rw [stepped]
      exact stepOut_outermost outermost
    have halted : m.step.outcome? = some .steppedOut := by simp only [outcome?, ended]
    obtain ⟨outcome, same, quiet⟩ := later.of_halted halted
    refine ⟨outcome, same.trans tape', quiet, fun path => ?_⟩
    obtain ⟨console, session⟩ := conclude_steppedOut n path
    refine ⟨console, session, fun tidy => ?_⟩
    rw [conclude_result tidy.closeListener.1]
    rfl

/-- A client steps out of a loop that is the last statement of another one. The cell is not zero, so the
outer loop begins again, and the run pauses at the inner one, which is not marked. -/
theorem step_out_leaves_again :
    let inner : Statement := .loop ⟨⟨1, 3⟩, false⟩ (.act ⟨⟨1, 9⟩, true⟩ .decrement .nil)
    let program : Block := .act ⟨⟨1, 1⟩, false⟩ .increment <|
      .loop ⟨⟨1, 2⟩, false⟩ (.cons inner .nil) .nil
    let command : Debug.Command := { operation := .ofString "step-out" }
    let client : Debug.Session := { state := .running, reader := { pending := [command.encode] } }
    let m := step^[7] (start program ⟨#[0], 0⟩ { session := some client })
    m.Hears (.act ⟨⟨1, 9⟩, true⟩ .decrement) command ∧
      Debug.Operation.ofName? command.operation = some .stepOut ∧
      m.step.tape = ⟨#[1], 0⟩ ∧ Through (fun k => ∀ t, ¬ k.Visits t) m.step (step^[2] m) ∧
      (step^[2] m).Visits inner ∧ (step^[2] m).PausesHere := by
  intro inner program command client m
  have fresh : ¬ World.ShowsPause { session := some client } :=
    World.not_showsPause rfl (by simp [client])
  have reached : (start program ⟨#[0], 0⟩ { session := some client }).Later m :=
    (through_iterate (p := fun _ => True) 0 7 fun _ _ => trivial).later
  have out : Debug.Operation.ofName? command.operation = some .stepOut := by decide +kernel
  have waits : m.phase = .paused ∧
      m.frame.rest.uncons? = some (.act ⟨⟨1, 9⟩, true⟩ .decrement, .nil) ∧
      m.world.session.map (·.readCommand.1) = some (.command command) ∧
      m.tape = ⟨#[1], 0⟩ ∧ m.outer ≠ [] := by
    decide +kernel
  have checked : (step^[1] m).frame.rest.uncons? = none ∧ (step^[2] m).phase = .arriving ∧
      (step^[2] m).frame.rest.uncons? = some (inner, .nil) := by
    decide +kernel
  -- from here on the machine need not be known
  clear_value m
  obtain ⟨paused, here, heard, tape, inside⟩ := waits
  obtain ⟨ended, arrived, first⟩ := checked
  have again : (step^[2] m).Visits inner := ⟨arrived, .nil, first⟩
  obtain ⟨session, client, command⟩ := Option.map_eq_some_iff.mp heard
  have hears : m.Hears (.act ⟨⟨1, 9⟩, true⟩ .decrement) _ :=
    ⟨paused, ⟨.nil, here⟩, session, client, command⟩
  obtain ⟨parent, outer, around⟩ := List.exists_cons_of_ne_nil inside
  obtain ⟨kept, -, leaves, -⟩ := step_out_leaves fresh reached hears out
  have unvisited : Through (fun k => ∀ t, ¬ k.Visits t) (step^[1] m) (step^[2] m) := by
    refine through_iterate 1 1 fun i fewer => ?_
    obtain rfl : i = 0 := by omega
    rintro t ⟨-, next, more⟩
    have none : none = some (t, next) := ended.symm.trans more
    simp at none
  exact ⟨hears, out, kept.trans tape, unvisited, again,
    ((leaves parent outer around).2.2 _ unvisited).2.2 _ again⟩

end TapeLang.Machine

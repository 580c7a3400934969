import TapeLang.Proofs.Course

/-!
The tape in a run. It keeps its cells and the cursor stays on one of them, whoever acts: statements,
commands of a client, and others. So no access misses the tape (`InRange`). A move off the tape is a
failure of the program: it ends the run at once, however many loops are around, and changes nothing.
-/
namespace TapeLang

open Source (Action Block Header Position Statement)

/-- A reason other than a cell that cannot be reached. -/
def Stop.IsElsewhere (reason : Stop) : Prop := ∀ fault, reason ≠ .fault (.tape fault)

theorem isElsewhere_failure (failure : Failure) : (Stop.failure failure).IsElsewhere := by
  intro fault
  simp

theorem isElsewhere_wait (misuse : WaitFault) : (Stop.fault (.wait misuse)).IsElsewhere := by
  intro fault
  simp

namespace World

theorem closeListener_reason {w : World} {reason : Stop}
    (stopped : w.closeListener.2 = .error reason) : reason.IsElsewhere := by
  unfold closeListener at stopped
  split at stopped
  · simp at stopped
  · split at stopped
    · simp at stopped
    · rw [← Except.error.inj stopped]
      exact isElsewhere_wait _

theorem bindStop?_reason {config : Config} {address : BindAddress} {reason : Stop}
    (refused : bindStop? config address = some reason) : reason.IsElsewhere := by
  unfold bindStop? at refused
  intro fault same
  subst same
  split at refused
  · simp at refused
  · split at refused
    · simp at refused
    · split at refused
      · simp at refused
      · split at refused <;> simp at refused

theorem enter_reason {w : World} {name : String} {reason : Stop}
    (stopped : (w.enter name).2 = .error reason) : reason.IsElsewhere := by
  intro fault same
  subst same
  unfold enter at stopped
  split at stopped
  · simp at stopped
  · unfold openFile at stopped
    split at stopped <;> simp at stopped
  · unfold openNetwork at stopped
    split at stopped
    · simp at stopped
    · split at stopped
      next refused =>
        rw [Except.error.inj stopped] at refused
        exact bindStop?_reason refused fault rfl
      next => split at stopped <;> simp at stopped
  · simp at stopped
  · simp at stopped

/-- A switch that does not go through had no need of the tape. -/
theorem switch_reason {w : World} {name : String} {reason : Stop}
    (stopped : (w.switch name).2 = .error reason) : reason.IsElsewhere := by
  unfold switch at stopped
  dsimp only at stopped
  split at stopped
  next closed =>
    obtain rfl := Except.error.inj stopped
    split at closed
    · exact closeListener_reason closed
    · simp at closed
  next => exact enter_reason stopped

end World

namespace Machine

variable {m n : Machine} {head : Header} {next : Block}

/-- The run did not end for want of a cell. -/
def Reaches (m : Machine) : Prop := ∀ fault, m.outcome? ≠ some (.broken (.tape fault))

/-- The tape is as long as it was made, the cursor is on a cell, and every access found its cell. -/
structure InRange (m : Machine) : Prop where
  size : m.tape.size = Tape.standardSize
  inside : m.tape.InBounds
  reaches : m.Reaches

/-! ## Every access finds its cell -/

theorem reaches_stop {reason : Stop} (elsewhere : reason.IsElsewhere) :
    (m.stop head reason).Reaches := by
  intro fault
  cases reason with
  | failure => simp [stop, halt, outcome?]
  | fault other =>
    have other : other ≠ .tape fault := fun same => elsewhere fault (by rw [same])
    simpa [stop, halt, outcome?] using other

theorem reaches_advance : (m.advance next).Reaches := by simp [Reaches, advance, outcome?]

theorem reaches_showState (reaches : m.Reaches) (s : Statement) : (m.showState s).Reaches := by
  unfold showState withSession
  split
  · dsimp only
    split <;> simp [Reaches, halt, outcome?]
  · exact reaches

theorem reaches_look (reaches : m.Reaches) (s : Statement) : (m.look s).Reaches := by
  unfold look
  split
  · dsimp only
    split
    · exact reaches_showState (m := { m with steering := _ }) (by exact reaches) s
    · simp [Reaches, outcome?]
  · simp [Reaches, outcome?]

theorem reaches_stepOut : m.stepOut.Reaches := by
  unfold stepOut
  dsimp only [proceed]
  split
  · simp [Reaches, halt, outcome?]
  · split
    · exact reaches_advance
    · simp [Reaches, outcome?]

theorem reaches_answer (reaches : m.Reaches) (s : Statement) (c : Debug.Command) :
    (m.answer s c).Reaches := by
  have proceeded (m : Machine) : m.proceed.Reaches := by simp [Reaches, proceed, outcome?]
  unfold answer
  split
  · exact reaches
  · exact proceeded _
  · exact proceeded _
  · split
    · exact proceeded _
    · exact reaches
  · exact proceeded _
  · exact reaches_stepOut
  · split
    · split
      next tape _ => exact reaches_showState (m := { m with tape }) (by exact reaches) s
      next => exact reaches
    · exact reaches

theorem reaches_hear (reaches : m.Reaches) (s : Statement) : (m.hear s).Reaches := by
  unfold hear withSession
  split
  · dsimp only
    split
    · exact reaches
    · simp [Reaches, outcome?]
    · simp [Reaches, halt, outcome?]
    · simp [Reaches, halt, outcome?]
    · simp [Reaches, halt, outcome?]
    · exact reaches_answer (m := { m with world := _ }) (by exact reaches) s _
  · exact reaches

theorem Outputs.reaches (outputs : m.Outputs head next n) (reaches : m.Reaches) : n.Reaches := by
  cases outputs with
  | sends => exact reaches_advance
  | waits => exact reaches
  | fails => exact reaches_stop (isElsewhere_failure _)
  | misuses => exact reaches_stop (isElsewhere_wait _)

theorem reaches_output (reaches : m.Reaches) : (m.output head next).Reaches :=
  (outputs_output m head next).reaches reaches

theorem reaches_perform (reaches : m.Reaches) (action : Action) :
    (m.perform head action next).Reaches := by
  cases action with
  | increment | decrement | clear | push => exact reaches_advance
  | moveRight | moveLeft =>
    simp only [perform]
    split
    · exact reaches_advance
    · exact reaches_stop (isElsewhere_failure _)
  | output => exact reaches_output reaches
  | input =>
    simp only [perform, input, withWorld_eq]
    split
    · exact reaches_advance
    · exact reaches_stop (isElsewhere_failure _)
  | switch name =>
    simp only [perform, withWorld_eq]
    split
    · exact reaches_advance
    next stopped => exact reaches_stop (World.switch_reason stopped)
  | none => simp [perform, Reaches, stop, halt, outcome?]

theorem reaches_act (reaches : m.Reaches) (cell : m.tape.hasCell = true) : m.act.Reaches := by
  unfold act
  simp only [cell, Bool.not_true, Bool.and_false, Bool.false_eq_true, ↓reduceIte]
  split
  · simp [Reaches, outcome?]
  · exact reaches_perform reaches _
  · split
    · exact reaches_advance
    · simp [Reaches, outcome?]

theorem reaches_endBlock (reaches : m.Reaches) (cell : m.tape.hasCell = true) :
    m.endBlock.Reaches := by
  unfold endBlock
  simp only [cell, Bool.not_true, Bool.false_eq_true, ↓reduceIte]
  split
  · simp [Reaches, halt, outcome?]
  · split
    · split
      · exact reaches_advance
      · exact reaches
    · exact reaches

/-- Where the cursor is on a cell, a step finds every cell that it reads or changes. -/
theorem Reaches.step (reaches : m.Reaches) (cell : m.tape.hasCell = true) : m.step.Reaches := by
  unfold Machine.step
  split
  · exact reaches
  · split
    · exact reaches_look reaches _
    · exact reaches_endBlock reaches cell
  · split
    · exact reaches_hear reaches _
    · simp [Reaches, outcome?]
  · exact reaches_act reaches cell

/-! ## Whole runs -/

theorem inRange_start (program : Block) (world : World) :
    (start program (.blank Tape.standardSize) world).InRange where
  size := Tape.size_blank _
  inside := Tape.inBounds_blank (by decide)
  reaches := by simp [Reaches, start, outcome?]

theorem InRange.turn (range : m.InRange) (turn : m.Turn n) : n.InRange := by
  cases turn with
  | step =>
    exact ⟨step_tape.1.trans range.size, step_tape.2 range.inside,
      range.reaches.step (Tape.hasCell_iff.mpr range.inside)⟩
  | others => exact ⟨range.size, range.inside, range.reaches⟩

theorem InRange.later (range : m.InRange) (later : m.Later n) : n.InRange :=
  later.keeps (fun _ _ turn range => range.turn turn) range

/-! ## Moves -/

/-- A failure at a position has ended the run: whatever happens, the tape is left as it was and no
statement acts. -/
def EndsAt (m : Machine) (failure : Failure) (position : Position) : Prop :=
  m.step.tape = m.tape ∧ ∀ n, m.step.Later n →
    n.outcome? = some (.failed failure position) ∧ n.tape = m.tape ∧ n.dispatch? = none

theorem endsAt_of_step {failure : Failure}
    (stopped : m.step = m.stop head (.failure failure)) : m.EndsAt failure head.position := by
  have tape : m.step.tape = m.tape := by rw [stopped]; rfl
  refine ⟨tape, fun n later => ?_⟩
  have halted : m.step.outcome? = some (.failed failure head.position) := by rw [stopped]; rfl
  obtain ⟨ended, same, quiet⟩ := later.of_halted halted
  exact ⟨ended, same.trans tape, quiet⟩


/-- The tape in any state of any run, of any program, in any world and whatever others do: as many cells
as it was made with, all of them bytes, the cursor on one of them, and no access that missed a cell. A
move to a neighbouring cell changes the cursor alone; one off the tape changes nothing and ends the run,
through all loops, with a failure at its position. -/
theorem tape_stays_in_range {program : Block} {world : World} {m : Machine}
    (reached : (start program (.blank Tape.standardSize) world).Later m) :
    m.tape.size = 30000 ∧ m.tape.cursor < 30000 ∧ (∀ cell ∈ m.tape.cells, cell.toNat ≤ 255) ∧
    (∀ fault, m.outcome? ≠ some (.broken (.tape fault))) ∧
    (∀ head next, m.phase = .ready → m.frame.rest = .act head .moveRight next →
      if m.tape.cursor < 29999 then m.step = { m with tape := m.tape.right }.advance next
      else m.EndsAt .overflow head.position) ∧
    (∀ head next, m.phase = .ready → m.frame.rest = .act head .moveLeft next →
      if 0 < m.tape.cursor then m.step = { m with tape := m.tape.left }.advance next
      else m.EndsAt .underflow head.position) := by
  have range : m.InRange := (inRange_start program world).later reached
  have size : m.tape.size = 30000 := range.size
  have inside : m.tape.cursor < 30000 := size ▸ range.inside
  refine ⟨size, inside, fun cell _ => Nat.le_of_lt_succ cell.toNat_lt, range.reaches, ?_, ?_⟩
  · intro head next phase rest
    have stepped : m.step = m.perform head .moveRight next := by
      simp [step, phase, act, rest, usesCell]
    split
    next room =>
      rw [stepped, perform, if_pos (by omega)]
    next edge =>
      refine endsAt_of_step ?_
      rw [stepped, perform, if_neg (by omega)]
  · intro head next phase rest
    have stepped : m.step = m.perform head .moveLeft next := by
      simp [step, phase, act, rest, usesCell]
    split
    next room => rw [stepped, perform, if_pos room]
    next edge =>
      refine endsAt_of_step ?_
      rw [stepped, perform, if_neg edge]

/-- The program that is one move to the left starts on the first cell and fails there. -/
theorem tape_stays_in_range_left :
    let m := (start (.act ⟨⟨1, 1⟩, false⟩ .moveLeft .nil) (.blank Tape.standardSize) {}).step
    m.phase = .ready ∧ m.frame.rest = .act ⟨⟨1, 1⟩, false⟩ .moveLeft .nil ∧
      m.tape.cursor = 0 ∧ m.EndsAt .underflow ⟨1, 1⟩ := by
  intro m
  have reached : (start (.act ⟨⟨1, 1⟩, false⟩ .moveLeft .nil) (.blank Tape.standardSize) {}).Later
    m := later_step _
  have rest : m.frame.rest = .act ⟨⟨1, 1⟩, false⟩ .moveLeft .nil := rfl
  have moved := (tape_stays_in_range reached).2.2.2.2.2 _ _ rfl rest
  have first : m.tape.cursor = 0 := rfl
  rw [first, if_neg (Nat.lt_irrefl 0)] at moved
  exact ⟨rfl, rest, first, moved⟩

end Machine
end TapeLang

import TapeLang.Proofs.Offline

/-!
The values that a program outputs. An output is carried out by the step that writes its value; on the
network it waits until a connection is attached. Every other step outputs nothing (`step_performs`).
-/
namespace TapeLang.Machine

/-- The value that the next step outputs, if it carries out an output. -/
def output? (m : Machine) : Option UInt8 :=
  match m.phase, m.frame.rest with
  | .ready, .act _ .output _ =>
    if !m.tape.hasCell then none
    else if m.world.target = .http && m.world.drain.endpoints.isEmpty then none
    else some m.tape.current
  | _, _ => none

variable {m : Machine}

/-- A step performs an action, or outputs nothing. A statement that is ready and performs no action
leaves the world alone. -/
theorem step_performs (m : Machine) :
    m.output? = none ∧ (m.phase = .ready → m.step.world = m.world) ∨
    ∃ head action next, m.phase = .ready ∧ m.frame.rest = .act head action next ∧
      (action = .output → m.tape.hasCell = true) ∧ m.step = m.perform head action next := by
  cases phase : m.phase with
  | halted | arriving | paused =>
    left
    constructor
    · simp only [output?, phase]
    · simp
  | ready =>
    have same : m.step = m.act := by simp only [step, phase]
    rw [same]
    cases rest : m.frame.rest with
    | nil =>
      left
      exact ⟨by simp only [output?, phase, rest], fun _ => by simp only [act, rest]⟩
    | loop head body next =>
      left
      refine ⟨by simp only [output?, phase, rest], fun _ => ?_⟩
      simp only [act, rest]
      split
      · rfl
      · split <;> rfl
    | act head action next =>
      by_cases cellless : (usesCell action && !m.tape.hasCell) = true
      · left
        have halted : m.act = m.halt (.broken (.tape .noCell)) := by
          simp only [act, rest, cellless, ↓reduceIte]
        rw [halted]
        refine ⟨?_, fun _ => rfl⟩
        have empty : m.tape.hasCell = false := by
          simpa using (Bool.and_eq_true_iff.mp cellless).2
        cases action <;> simp [output?, phase, rest, empty]
      · right
        refine ⟨head, action, next, rfl, rfl, ?_, ?_⟩
        · rintro rfl
          simpa [usesCell] using cellless
        · simp only [act, rest]
          rw [if_neg cellless]

/-- Where a statement that is ready does not act, the world is the same, the session perhaps aside. -/
theorem spares_of_still (still : m.phase = .ready → m.step.world = m.world) : m.Spares m.step := by
  rcases step_world with spares | ⟨_, _, _, phase, -⟩
  · exact spares
  · exact ⟨m.world.session, still phase⟩

theorem stop_world (m : Machine) (head : Source.Header) (reason : Stop) :
    (m.stop head reason).world = m.world := by
  cases reason <;> rfl

/-- Away from the network an output is a broadcast, whatever comes of it. -/
theorem output_world (away : m.world.target ≠ .http) (head : Source.Header) (next : Source.Block) :
    (m.output head next).world = (m.world.broadcast m.tape.current).1 := by
  simp only [output_away away, withWorld_eq]
  split
  · rfl
  · exact stop_world _ _ _

end TapeLang.Machine

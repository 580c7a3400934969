import TapeLang.Machine.Run
import TapeLang.Proofs.Stuttering

/-!
What a finished run leaves behind: the exit code, what was written to the two console streams, the
tape, the active target and the files. Two runs are compared by it. A machine that never waits for
somebody else is stepped without regard to the bound of its run, so its runs are the iterates of its
step.
-/
namespace TapeLang

/-- What an observer finds after a run. -/
structure Ending where
  code : Except Fault Int
  output : List UInt8
  errors : List UInt8
  tape : Tape
  target : Source.Target
  files : Host.Files

/-- What a run left: its world, its tape and its exit code. -/
def Ending.of (left : World) (tape : Tape) (code : Except Fault Int) : Ending :=
  { code, output := left.console.out.bytes, errors := left.console.err.bytes, tape,
    target := left.target, files := left.files }

namespace Machine

/-- The ending of a machine of the program at a path, if it has halted: after the report and the
release of everything. -/
def ending? (m : Machine) (path : String) : Option Ending :=
  m.outcome?.map fun outcome =>
    Ending.of (m.conclude path outcome).1 m.tape (m.conclude path outcome).2

/-- The run of a machine halts, and with this ending. -/
def EndsWith (m : Machine) (path : String) (e : Ending) : Prop :=
  ∃ bound, (m.run bound).ending? path = some e

variable {m : Machine} {path : String}

theorem phase_of_halted {outcome : Outcome} (halted : m.outcome? = some outcome) :
    m.phase = .halted outcome := by
  unfold outcome? at halted
  split at halted
  next phase => rw [phase, Option.some.inj halted]
  next => simp at halted

theorem step_of_halted {outcome : Outcome} (halted : m.outcome? = some outcome) : m.step = m := by
  simp only [step, phase_of_halted halted]

theorem outcome_of_ending {e : Ending} (ended : m.ending? path = some e) :
    ∃ outcome, m.outcome? = some outcome := by
  obtain ⟨outcome, halted, -⟩ := Option.map_eq_some_iff.mp ended
  exact ⟨outcome, halted⟩

theorem ending_eq_none_iff : m.ending? path = none ↔ m.outcome? = none := Option.map_eq_none_iff

/-- A machine that has halted stays as it is. -/
theorem settles_step (path : String) : Stuttering.Settles step (ending? · path) := by
  intro m e ended
  obtain ⟨outcome, halted⟩ := outcome_of_ending ended
  rwa [step_of_halted halted]

/-- A longer run of a machine that has halted is the same run. -/
theorem run_of_halted {outcome : Outcome} (halted : (m.run n).outcome? = some outcome) (k : Nat) :
    m.run (n + k) = m.run n := by
  induction n generalizing m with
  | zero =>
    have done : m.isDone = true := by simp only [run] at halted; simp [isDone, halted]
    cases k <;> simp [run, done]
  | succ n ih =>
    rw [Nat.succ_add]
    simp only [run] at halted ⊢
    split
    · rfl
    next going =>
      rw [if_neg going] at halted
      exact ih halted

/-- A run halts with one ending. -/
theorem EndsWith.unique {e e' : Ending} (first : m.EndsWith path e) (second : m.EndsWith path e') :
    e = e' := by
  obtain ⟨n, ended⟩ := first
  obtain ⟨n', ended'⟩ := second
  obtain ⟨_, halted⟩ := outcome_of_ending ended
  obtain ⟨_, halted'⟩ := outcome_of_ending ended'
  have same : m.run (n + n') = m.run n := run_of_halted halted n'
  have same' : m.run (n + n') = m.run n' := Nat.add_comm n' n ▸ run_of_halted halted' n
  rw [← same, same'] at ended
  exact Option.some.inj (ended.symm.trans ended')

/-- Where no state of a run waits, the run is stepping. -/
theorem run_eq_iterate (awake : ∀ n, (step^[n] m).waits = false) (n : Nat) :
    m.run n = step^[n] m := by
  induction n generalizing m with
  | zero => rfl
  | succ n ih =>
    have here : m.waits = false := awake 0
    cases halted : m.outcome? with
    | some outcome =>
      have fixed : m.step = m := step_of_halted halted
      rw [Function.iterate_fixed fixed]
      simp [run, isDone, halted]
    | none =>
      simp only [run, isDone, halted, here, Option.isSome_none, Bool.or_self, Bool.false_eq_true,
        ↓reduceIte]
      exact ih fun k => awake (k + 1)

theorem endsWith_iff_iterate (awake : ∀ n, (step^[n] m).waits = false) {e : Ending} :
    m.EndsWith path e ↔ ∃ n, (step^[n] m).ending? path = some e := by
  unfold EndsWith
  simp only [run_eq_iterate awake]

end Machine
end TapeLang

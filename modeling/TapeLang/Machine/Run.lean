import TapeLang.Machine.Step

/-!
Whole runs. A machine is stepped until it has ended or waits for somebody else; the bound on the
number of steps is the caller's. What follows is the same for every outcome: a failure is reported to
the error stream and to an attached client, and everything that was opened is released. A report that
does not reach the error stream is dropped; one that does not reach the client is a fault.
-/
namespace TapeLang

open Source (Block Position)

/-- A statement about to act: where it stands, how many loops are around it, and the tape it finds. -/
structure Dispatch where
  position : Position
  depth : Nat
  cursor : Nat
  value : UInt8
deriving DecidableEq, Repr

namespace Machine

/-- Whether a step changes nothing. -/
def isDone (m : Machine) : Bool := m.outcome?.isSome || m.waits

/-- Steps a machine until it has ended or waits, at most `bound` times. -/
def run : (bound : Nat) → Machine → Machine
  | 0, m => m
  | bound + 1, m => if m.isDone then m else run bound m.step

/-- The statement that is about to act. -/
def dispatch? (m : Machine) : Option Dispatch :=
  match m.phase, m.frame.rest.uncons? with
  | .ready, some (s, _) => some ⟨s.head.position, m.depth, m.tape.cursor, m.tape.current⟩
  | _, _ => none

/-- Runs a machine as `run` does and records the first `limit` statements that act, last first. -/
def runTraced : (bound limit : Nat) → List Dispatch → Machine → Machine × List Dispatch
  | 0, _, seen, m => (m, seen)
  | bound + 1, limit, seen, m =>
    if m.isDone then (m, seen)
    else
      let waiting := m.phase = .ready
      let m := m.step
      match limit with
      | 0 => runTraced bound 0 seen m
      | limit + 1 =>
        match if waiting then none else m.dispatch? with
        | some dispatch => runTraced bound limit (dispatch :: seen) m
        | none => runTraced bound (limit + 1) seen m

end Machine

/-! ## Reports and release -/

namespace World

/-- Reports an error to the error stream and to an attached client. -/
def reportError (w : World) (text : String) : World × Except Fault Unit :=
  let w := (w.writeError text).toOption.getD w
  match w.session with
  | some session =>
    if session.attached then
      match session.reportError text with
      | .ok session => ({ w with session := some session }, .ok ())
      | .error error => (w, .error (.os error))
    else (w, .ok ())
  | none => (w, .ok ())

/-- Releases everything after a run, whose result stands unless the release is at fault. -/
def release {α : Type} (w : World) (result : Except Fault α) : World × Except Fault α :=
  match w.close with
  | (w, .ok ()) => (w, result)
  | (w, .error (.fault fault)) => (w, .error fault)
  | (w, .error (.failure _)) => (w, result)

end World

namespace Machine

/-- The exit code of a run of the program at a path that ended in an outcome, after its report. -/
def settleOutcome (w : World) (path : String) : Outcome → World × Except Fault Int
  | .completed | .steppedOut => (w, .ok 0)
  | .failed failure position =>
    match w.reportError (failure.located position path).report with
    | (w, .ok ()) => (w, .ok 1)
    | (w, .error fault) => (w, .error fault)
  | .broken fault => (w, .error fault)

/-- Ends the run of the program at a path: the world that is left and the exit code. -/
def conclude (m : Machine) (path : String) (outcome : Outcome) : World × Except Fault Int :=
  let (w, result) := settleOutcome m.world path outcome
  w.release result

end Machine
end TapeLang

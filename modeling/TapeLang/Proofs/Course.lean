import Mathlib.Logic.Relation
import TapeLang.Proofs.Ending
import TapeLang.Proofs.Standing

/-!
The course of a run. The machine takes steps, and between them others act: clients connect and hang up,
commands and input arrive, streams break, files change (`Turn`). What others do they do to the world, so
what holds of a machine in every world holds along every course that its steps keep it on.
-/
namespace TapeLang.Machine

/-- One turn of a run: the machine takes a step, or others act. They may change the world in any way,
except that how the debug session stands is the machine's own. -/
inductive Turn (m : Machine) : Machine → Prop where
  | step : m.Turn m.step
  | others (world : World) (standing : world.standing = m.world.standing) : m.Turn { m with world }

/-- The machines that a run comes to. -/
def Later : Machine → Machine → Prop := Relation.ReflTransGen Turn

/-- A turn in which the machine takes no step but from where it has a property. -/
inductive Turn.Within (p : Machine → Prop) (m : Machine) : Machine → Prop where
  | step (holds : p m) : Within p m m.step
  | others (world : World) (standing : world.standing = m.world.standing) :
    Within p m { m with world }

/-- The machines that a run comes to as long as it takes its steps from machines with a property. -/
def Through (p : Machine → Prop) : Machine → Machine → Prop := Relation.ReflTransGen (Turn.Within p)

variable {m n : Machine} {p q : Machine → Prop}

theorem later_step (m : Machine) : m.Later m.step := .single .step

/-- A machine by itself comes to what it steps to from machines with a property. -/
theorem through_iterate (j k : Nat) (holds : ∀ i < k, p (step^[j + i] m)) :
    Through p (step^[j] m) (step^[j + k] m) := by
  induction k with
  | zero => exact .refl
  | succ k ih =>
    rw [← Nat.add_assoc, Function.iterate_succ_apply']
    exact (ih fun i fewer => holds i (by omega)).tail (.step (holds k (by omega)))

theorem Through.later (through : Through p m n) : m.Later n := by
  induction through with
  | refl => exact .refl
  | tail _ turn later =>
    cases turn with
    | step => exact later.tail .step
    | others world standing => exact later.tail (.others world standing)

/-- What every turn keeps holds later. -/
theorem Later.keeps (later : m.Later n) (kept : ∀ m n, m.Turn n → q m → q n) (holds : q m) :
    q n := by
  induction later with
  | refl => exact holds
  | tail _ turn ih => exact kept _ _ turn ih

/-- What steps from machines with a property keep, and what others keep, holds as long as there are
no other steps. -/
theorem Through.keeps (through : Through p m n) (step : ∀ m, p m → q m → q m.step)
    (others : ∀ (m : Machine) (world : World), world.standing = m.world.standing → q m →
      q { m with world }) (holds : q m) : q n := by
  induction through with
  | refl => exact holds
  | tail _ turn ih =>
    cases turn with
    | step passes => exact step _ passes ih
    | others world standing => exact others _ world standing ih

/-! ## The end of a run -/

/-- When a run has ended nothing but the world changes. -/
theorem Later.of_halted {outcome : Outcome} (later : m.Later n)
    (halted : m.outcome? = some outcome) :
    n.outcome? = some outcome ∧ n.tape = m.tape ∧ n.dispatch? = none := by
  have ended : n.outcome? = some outcome ∧ n.tape = m.tape := by
    refine later.keeps (q := fun n => n.outcome? = some outcome ∧ n.tape = m.tape) ?_ ⟨halted, rfl⟩
    rintro n o turn ⟨halted, tape⟩
    cases turn with
    | step => exact ⟨by rwa [step_of_halted halted], by rwa [step_of_halted halted]⟩
    | others => exact ⟨halted, tape⟩
  exact ⟨ended.1, ended.2, by simp only [dispatch?, phase_of_halted ended.1]⟩

end TapeLang.Machine

import Mathlib.Logic.Function.Iterate

/-!
Two deterministic systems that end alike. One of them is followed step by step: for each of its steps
the other one takes some steps, perhaps none, and a rank that falls with every step that is not
answered keeps it from running on alone for ever. Then both end or neither does, and with the same
result. The relation between the two is the simulation's own; what a user of it proves is one step.
-/
namespace TapeLang.Stuttering

/-- Each step of the first system is answered by steps of the second, and related states have ended
with the same result or have not ended. -/
structure Simulation {α β γ : Type} (next : α → α) (next' : β → β) (result : α → Option γ)
    (result' : β → Option γ) (R : α → β → Prop) where
  /-- falls with each step that the second system does not answer -/
  rank : α → Nat
  alike : ∀ a b, R a b → result a = result' b
  answer : ∀ a b, R a b → result a = none →
    ∃ k, R (next a) (next'^[k] b) ∧ (k = 0 → rank (next a) < rank a)

/-- A result, once there, stays. -/
def Settles {α γ : Type} (next : α → α) (result : α → Option γ) : Prop :=
  ∀ a r, result a = some r → result (next a) = some r

variable {α β γ : Type} {next : α → α} {next' : β → β} {result : α → Option γ}
  {result' : β → Option γ} {R : α → β → Prop} {a : α} {b : β} {r : γ}

theorem Settles.iterate (settles : Settles next result) (n : Nat) (ended : result a = some r) :
    result (next^[n] a) = some r := by
  induction n generalizing a with
  | zero => exact ended
  | succ n ih => exact ih (settles a r ended)

/-- What the first system ends with, the second one ends with. -/
theorem Simulation.forward (sim : Simulation next next' result result' R)
    (settles : Settles next result) (related : R a b) (n : Nat)
    (ended : result (next^[n] a) = some r) : ∃ m, result' (next'^[m] b) = some r := by
  induction n generalizing a b with
  | zero => exact ⟨0, (sim.alike a b related).symm.trans ended⟩
  | succ n ih =>
    cases now : result a with
    | some q =>
      have same : some q = some r := (settles.iterate (n + 1) now).symm.trans ended
      exact ⟨0, (sim.alike a b related).symm.trans (now.trans same)⟩
    | none =>
      obtain ⟨k, related', -⟩ := sim.answer a b related now
      obtain ⟨m, ended'⟩ := ih related' ended
      exact ⟨m + k, by rwa [Function.iterate_add_apply]⟩

/-- What the second system ends with, the first one ends with. The induction is on the steps the
second one still has to take, and among equal numbers of them on the rank. -/
theorem Simulation.backward (sim : Simulation next next' result result' R)
    (settles' : Settles next' result') (related : R a b) (n : Nat)
    (ended : result' (next'^[n] b) = some r) : ∃ m, result (next^[m] a) = some r := by
  induction n using Nat.strongRecOn generalizing a b with
  | ind n fewer =>
    induction h : sim.rank a using Nat.strongRecOn generalizing a b with
    | ind rank lower =>
      cases now : result a with
      | some q =>
        have ended' := settles'.iterate n ((sim.alike a b related).symm.trans now)
        exact ⟨0, now.trans (ended'.symm.trans ended)⟩
      | none =>
        obtain ⟨k, related', falls⟩ := sim.answer a b related now
        have ⟨m, ended'⟩ : ∃ m, result (next^[m] (next a)) = some r := by
          by_cases still : k = 0
          · subst still
            exact lower _ (h ▸ falls rfl) related' ended rfl
          · by_cases within : k ≤ n
            · refine fewer (n - k) (by omega) related' ?_
              rwa [← Function.iterate_add_apply, Nat.sub_add_cancel within]
            · refine ⟨0, (sim.alike _ _ related').trans ?_⟩
              have later := settles'.iterate (k - n) ended
              rwa [← Function.iterate_add_apply, Nat.sub_add_cancel (by omega)] at later
        exact ⟨m + 1, ended'⟩

/-- Both systems end or neither does, and with the same result. -/
theorem Simulation.ends_iff (sim : Simulation next next' result result' R)
    (settles : Settles next result) (settles' : Settles next' result') (related : R a b) :
    (∃ n, result (next^[n] a) = some r) ↔ ∃ n, result' (next'^[n] b) = some r :=
  ⟨fun ⟨n, ended⟩ => sim.forward settles related n ended,
    fun ⟨n, ended⟩ => sim.backward settles' related n ended⟩

end TapeLang.Stuttering

import TapeLang.Proofs.Delivery.Switching
import TapeLang.Proofs.Execution
import TapeLang.Proofs.Execution.Soundness

/-!
The release of everything. It closes the listener, which answers everybody who was registered, and then
each handle. No other operation closes a handle (`Effect.holds`), and none leads to the release
(`Effect.calm`). Each step brings it closer to its end, unless a response is pending (`Sound.nearer`); what
is left then is nothing (`Sound.released`).
-/
namespace TapeLang

namespace World

theorem Holds.enter {w : World} (holds : w.Holds) (name : String) : (w.enter name).1.Holds := by
  unfold World.enter
  split
  · exact holds.of_same rfl rfl
  · exact holds.openFile
  · unfold World.openNetwork
    split
    · exact holds
    · split
      · exact holds
      · split
        · exact holds.of_same rfl rfl
        · exact holds
  · exact holds.of_same rfl rfl
  · exact holds

end World

namespace Interleaving

open Delivery (Manned)
open Http (Connection Listener Traffic)

variable {s t : System} {w : World} {before after : Control} {id : Nat}

/-- Whether the operation under way is the release of everything. -/
def Control.releases : Control → Bool
  | .shutting _ .close | .completing _ _ .close | .settling _ .close | .disarming _ .close
  | .releasing _ .close | .ending => true
  | _ => false

/-- Nothing that a run acquired is left. -/
structure Released (s : System) : Prop where
  handles : ∀ handle ∈ s.world.files.handles, handle.closings = 1
  unopened : s.world.listener = none
  closed : ∀ listener ∈ s.world.traffic.listeners, listener.closed = true
  /-- Every connection that was registered got one reply, which carries all that was written to it. -/
  answered : ∀ id, .registered id ∈ s.log →
    ∃ type, replies id s.log = [.answered type (written id s.log)]
  program : s.world.traffic.waiters.count Waiters.program = .ok 0
  connection : s.world.traffic.waiters.count Waiters.connection = .ok 0

/-! ## Nothing is left -/

theorem Reachable.closed_of_unopened (reachable : Reachable s) (idle : s.control = .idle)
    (unopened : s.world.listener = none) {listener : Nat} {l : Listener}
    (found : s.world.traffic.listeners[listener]? = some l) : l.closed = true := by
  cases closed : l.closed with
  | true => rfl
  | false =>
    have opened : IsOpen s.world.traffic listener := by simp [IsOpen, closedAt, found, closed]
    have current := reachable.confined.current listener opened
    simp [System.current, currentOf, Control.place, idle, unopened] at current

/-- Where no listener is open, whoever was registered has got a reply, and only one. -/
theorem Reachable.answered_of_unopened (reachable : Reachable s) (idle : s.control = .idle)
    (unopened : s.world.listener = none) (registered : .registered id ∈ s.log) :
    ∃ type, replies id s.log = [.answered type (Interleaving.written id s.log)] := by
  have recorded := reachable.ledger.recorded id
  have told : verdict (connectionAt s.world.traffic id) = some true := by
    rwa [registered_mem, recorded.verdicts, Option.mem_toList] at registered
  cases known : s.world.traffic.connections[id]? with
  | none =>
    simp [connectionAt, known, verdict] at told
  | some c =>
    rw [connectionAt_of_known known] at recorded told
    have own : RegisteredWith s.world.traffic id c.listener c.stage := ⟨c, known, rfl, rfl, told⟩
    obtain ⟨l, found⟩ : ∃ l, s.world.traffic.listeners[c.listener]? = some l := by
      cases found : s.world.traffic.listeners[c.listener]? with
      | some l => exact ⟨l, rfl⟩
      | none => exact absurd (by simp only [closedAt, found]; rfl) (reachable.hosted id _ _ own)
    have shut : IsShut s.world.traffic c.listener := by
      simp [IsShut, closedAt, found, reachable.closed_of_unopened idle unopened found]
    have gone : c.stage = .gone :=
      reachable.cleared c.listener shut (by simp [idle, Control.unsettled?]) id c.stage own
    obtain ⟨reply, sent⟩ : ∃ reply, c.reply = some reply := by
      have replied := recorded.replied.mpr (.inr gone)
      exact Option.ne_none_iff_exists'.mp replied
    have answer : isAnswer reply = true := by simpa [verdict, gone, sent] using told
    rcases recorded.reply reply sent with rfl | ⟨-, type, rfl⟩
    · simp [isAnswer] at answer
    · exact ⟨type, by rw [recorded.replies, recorded.written, sent]; rfl⟩

theorem Sound.released (sound : Sound s) (idle : s.control = .idle)
    (unopened : s.world.listener = none)
    (handles : ∀ handle ∈ s.world.files.handles, handle.closings = 1) : Released s where
  handles := handles
  unopened := unopened
  closed listener member := by
    obtain ⟨k, bound, rfl⟩ := Array.mem_iff_getElem.mp member
    exact sound.reachable.closed_of_unopened idle unopened (Array.getElem?_eq_getElem bound)
  answered _ registered := sound.reachable.answered_of_unopened idle unopened registered
  program := by
    obtain ⟨armed, -, counts, -⟩ := sound.reachable.tallied.counts
    simp [counts, System.isUp, isUp, idle, unopened, Control.place]
    rfl
  connection := sound.disarmed (isDisarmed_of_unopened idle unopened)

/-! ## What the steps of the interpreter keep -/

/-- Only the release of everything leads to the release of everything. -/
theorem Follows.releases (follows : Follows before after) : after.releases = before.releases := by
  cases follows with
  | @shut purpose | @unshut purpose | @complete _ purpose | @completed _ purpose
  | @settled purpose | @disarm purpose | @release purpose => cases purpose <;> rfl
  | @armed next | @arm next => cases next <;> rfl
  | _ => rfl

/-- No handle is closed before everything is released. -/
theorem Effect.holds (effect : Effect s t) (holds : s.world.Holds) (going : s.control ≠ .ending) :
    t.world.Holds := by
  cases effect with
  | follows | attach | broke | seat => exact holds.of_same rfl rfl
  | write control written => exact holds.writeByte written
  | read => exact holds.readLive
  | enter => exact holds.enter _
  | ended control => exact absurd control going

/-- A listener is open wherever the network is active, also after a switch, unless that fails. -/
theorem Effect.manned (effect : Effect s t) (manned : s.control.place = .free → Manned s.world)
    (free : t.control.place = .free) (going : s.control ≠ .ending)
    (succeeds : t.control = .idle → ∃ byte?, s.verdict = .ok byte?) : Manned t.world := by
  have kept (v : World) (same : SameRouting s.world v) (before : s.control.place = .free) :
      Manned v := by
    have manned := manned before
    unfold Manned at manned ⊢
    rwa [same.target, same.listener]
  cases effect with
  | follows follows => exact kept _ ⟨rfl, rfl, rfl⟩ (follows.free free)
  | attach control | broke control => exact manned (by rw [control]; rfl)
  | write control written => exact kept _ (.of_writeByte written) (by rw [control]; rfl)
  | read control => exact kept _ (sameRouting_readLive _) (by rw [control]; rfl)
  | @enter name control =>
    obtain ⟨byte?, entered⟩ := succeeds rfl
    simp only [System.verdict, control] at entered
    obtain ⟨_, entered, -⟩ := ok_of_map_ok entered
    exact (Delivery.attempt_enter s.world name).manned entered
  | seat => exact fun _ => by simp [System.attachStep]
  | ended control => exact absurd control going

theorem Effect.calm (effect : Effect s t) (calm : s.control.releases = false) :
    t.control.releases = false := by
  cases effect with
  | follows follows => exact follows.releases.trans calm
  | @attach fresh next => cases next <;> rfl
  | _ => rfl

theorem Effect.of_testing (effect : Effect s t) (control : s.control = .testing again) :
    SameRouting s.world t.world := by
  cases effect with
  | follows => exact ⟨rfl, rfl, rfl⟩
  | attach other | write other | broke other | read other | enter other | seat other | ended other =>
    simp [control] at other

/-- When the release is over, each handle has been closed once. -/
theorem closed_endStep (unopened : s.world.listener = none) (holds : s.world.Holds) :
    ∀ handle ∈ s.endStep.world.files.handles, handle.closings = 1 := by
  have closes : s.world.closeListener.2 = .ok () := by
    unfold World.closeListener
    rw [unopened]
  have same : s.endStep.world.files = s.world.close.1.files := by
    simp only [System.endStep, World.close, World.closeListener, unopened]
  rw [same]
  exact holds.close closes

/-! ## What an operation begins with -/

theorem holds_undertake (holds : s.world.Holds) (operation : Operation) :
    (s.undertake operation).world.Holds := by
  cases operation with
  | switch name =>
    unfold System.undertake
    dsimp only
    split <;> exact holds.of_same rfl rfl
  | _ => exact holds.of_same rfl rfl

theorem place_leave (s : System) (purpose : Purpose) : (s.leave purpose).control.place ≠ .free := by
  unfold System.leave
  cases s.world.listener with
  | none => simp
  | some listener => exact Place.noConfusion

theorem manned_undertake (manned : Manned s.world) {operation : Operation}
    (free : (s.undertake operation).control.place = .free) : Manned (s.undertake operation).world := by
  cases operation with
  | close => exact absurd free (place_leave s .close)
  | switch name =>
    unfold System.undertake at free
    dsimp only at free
    split at free
    · exact absurd free (place_leave s _)
    · simp [System.goto, Control.place] at free
  | _ => exact manned

theorem releases_undertake {operation : Operation} (going : operation ≠ .close) :
    (s.undertake operation).control.releases = false := by
  cases operation with
  | close => exact absurd rfl going
  | switch name =>
    unfold System.undertake System.leave
    dsimp only
    split
    · cases s.world.listener <;> rfl
    · rfl
  | _ => rfl

theorem releases_close (s : System) : (s.undertake .close).control.releases = true := by
  unfold System.undertake System.leave
  cases s.world.listener <;> rfl

/-! ## The way to the end -/

/-- What is left of a release: its stages, and the responses that its stage still completes. -/
def Control.left : Control → Nat × Nat
  | .shutting .. => (6, 0)
  | .completing _ left _ => (5, left.length)
  | .settling .. => (4, 0)
  | .disarming .. => (3, 0)
  | .releasing .. => (2, 0)
  | .ending => (1, 0)
  | _ => (0, 0)

/-- Less of a release is left. -/
def Nearer (after before : Control) : Prop := Prod.Lex (· < ·) (· < ·) after.left before.left

/-- A close waits for responses that are pending. -/
def System.AwaitsResponses (s : System) : Prop :=
  (∃ listener purpose, s.control = .settling listener purpose) ∧ 0 < unanswered s.world.traffic

theorem nearer_shutStep (s : System) (listener : Nat) :
    Nearer (s.shutStep listener .close).control (.shutting listener .close) := by
  unfold System.shutStep
  split
  · split
    · exact .left _ _ (by decide)
    · exact .left _ _ (Nat.lt_succ_self 5)
  · exact .left _ _ (by decide)

/-- Each step of the release brings it closer to its end, unless a response is pending. -/
theorem Sound.nearer (sound : Sound s.mute) (releases : s.control.releases = true)
    (interpreted : s.interpret = .ok t) : Nearer t.control s.control ∨ s.AwaitsResponses := by
  obtain ⟨armed, -, counts, -⟩ := sound.reachable.tallied.counts
  have counts : s.world.traffic.waiters =
    .counts (if s.isUp then 1 else 0) armed (unanswered s.world.traffic) := counts
  unfold System.interpret at interpreted
  dsimp only at interpreted
  rw [counts] at interpreted
  unfold Control.releases at releases
  split at releases
  next listener control =>
    simp only [control] at interpreted
    obtain rfl := Except.ok.inj interpreted
    exact .inl (control ▸ nearer_shutStep s listener)
  next listener left control =>
    simp only [control] at interpreted
    cases left with
    | nil =>
      obtain rfl := Except.ok.inj interpreted
      exact .inl (control ▸ .left _ _ (by decide))
    | cons first left =>
      obtain rfl := Except.ok.inj interpreted
      exact .inl (control ▸ .right _ (Nat.lt_succ_self _))
  next listener control =>
    simp only [control, Waiters.counts_isReleased_write] at interpreted
    cases pending : unanswered s.world.traffic with
    | zero =>
      rw [pending] at interpreted
      obtain rfl := Except.ok.inj interpreted
      exact .inl (control ▸ .left _ _ (by decide))
    | succ more => exact .inr ⟨⟨_, _, control⟩, pending ▸ Nat.succ_pos more⟩
  next listener control =>
    simp only [control, Waiters.counts_doneIfPending] at interpreted
    obtain rfl := Except.ok.inj interpreted
    exact .inl (control ▸ .left _ _ (by decide))
  next listener control =>
    have up : s.isUp = true := by rw [System.isUp, control]; rfl
    simp only [control, up, ↓reduceIte, Waiters.counts_done_program (p := 0)] at interpreted
    obtain rfl := Except.ok.inj interpreted
    exact .inl (control ▸ .left _ _ (by decide))
  next control =>
    have down : s.isUp = false := by rw [System.isUp, control]; rfl
    simp only [control, down, Waiters.counts_isReleased_program] at interpreted
    obtain rfl := Except.ok.inj interpreted
    exact .inl (control ▸ .left _ _ (by decide))
  next => simp at releases

end Interleaving
end TapeLang

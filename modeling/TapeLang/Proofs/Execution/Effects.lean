import TapeLang.Proofs.Delivery.Muted
import TapeLang.Proofs.Interleaving.Operations

/-!
What a step of the interpreter does besides the traffic. It is the same with nobody at the console
(`mute_interpret_cases`), so what is known of reachable states is known of the states of a program, whatever
becomes of its console and debug session. Few steps change the routing or the files, and `Effect` lists
them; the others only move control (`Follows`).
-/
namespace TapeLang.Interleaving

open Http (Connection Listener Traffic)
open Source (Target)

namespace System

/-- The same state with nobody at the console. -/
def mute (s : System) : System := { s with world := s.world.mute }

end System

variable {s t : System}

theorem mute_drainStep (s : System) (fresh : List Nat) (next : Drained) :
    s.mute.drainStep fresh next = (s.drainStep fresh next).mute := by
  have same : s.mute.inbox = s.inbox ∧ s.mute.world.listener = s.world.listener := ⟨rfl, rfl⟩
  unfold System.drainStep
  rw [same.1, same.2]
  split <;> rfl

theorem mute_enterStep (s : System) (name : String) :
    s.mute.enterStep name = (s.enterStep name).mute := by
  have same : s.mute.world.config = s.world.config := rfl
  unfold System.enterStep
  rw [same]
  split
  · rfl
  · have opened : s.mute.world.openFile.1 = s.world.openFile.1.mute := by
      show s.world.mute.openFile.1 = _
      rw [World.mute_openFile]
    rw [opened]
    rfl
  · rfl
  · split
    · split <;> rfl
    · rfl
  · rfl

theorem mute_shutStep (s : System) (id : Nat) (purpose : Purpose) :
    s.mute.shutStep id purpose = (s.shutStep id purpose).mute := by
  have same : s.mute.world.traffic = s.world.traffic := rfl
  unfold System.shutStep
  rw [same]
  split
  · split <;> rfl
  · rfl

theorem mute_writeStep (s : System) (value : UInt8) (left : List Endpoint)
    (away : ∀ rest, left ≠ .console :: rest) :
    s.mute.writeStep value left = (s.writeStep value left).mute := by
  cases left with
  | nil => rfl
  | cons endpoint rest =>
    cases endpoint with
    | console => exact absurd rfl (away rest)
    | file | connection => rfl

/-- A step of the interpreter is the same with nobody at the console, unless it writes there. -/
theorem mute_interpret (away : ∀ value rest, s.control ≠ .writing value (.console :: rest)) :
    s.mute.interpret = s.interpret.map System.mute := by
  have same : s.mute.world.traffic = s.world.traffic ∧ s.mute.world.endpoints = s.world.endpoints ∧
    s.mute.control = s.control := ⟨rfl, rfl, rfl⟩
  unfold System.interpret
  dsimp only
  rw [same.1, same.2.1, same.2.2]
  cases control : s.control with
  | idle | listening | attaching => rfl
  | draining fresh next => exact congrArg Except.ok (mute_drainStep s fresh next)
  | testing again => exact congrArg Except.ok (by split <;> rfl)
  | waiting =>
    cases s.world.traffic.waiters.isReleased Waiters.connection with
    | error => rfl
    | ok released => cases released <;> rfl
  | counting next => cases s.world.traffic.waiters.count Waiters.connection <;> rfl
  | arming next => cases s.world.traffic.waiters.add Waiters.connection 1 <;> rfl
  | writing value left =>
    refine congrArg Except.ok (mute_writeStep s value left ?_)
    rintro rest rfl
    exact away value rest control
  | reading =>
    have read : s.mute.world.readLive.1 = s.world.readLive.1.mute := World.mute_readLive s.world
    exact congrArg Except.ok (by rw [read]; rfl)
  | finishing left => cases left <;> rfl
  | shutting id purpose => exact congrArg Except.ok (mute_shutStep s id purpose)
  | completing id left purpose => cases left <;> rfl
  | settling id purpose =>
    cases s.world.traffic.waiters.isReleased Waiters.write with
    | error => rfl
    | ok released => cases released <;> rfl
  | disarming id purpose => cases s.world.traffic.waiters.doneIfPending Waiters.connection <;> rfl
  | releasing id purpose => cases s.world.traffic.waiters.done Waiters.program <;> rfl
  | entering name => exact congrArg Except.ok (mute_enterStep s name)
  | holding type => cases s.world.traffic.waiters.add Waiters.program 1 <;> rfl
  | ending =>
    cases s.world.traffic.waiters.isReleased Waiters.program with
    | error => rfl
    | ok released => cases released <;> rfl

/-- A step of the interpreter is one with nobody at the console, or two where a write to the console,
which is live alone, fails. -/
theorem mute_interpret_cases (interpreted : s.interpret = .ok t)
    (alone : ∀ value rest, s.control = .writing value (.console :: rest) → rest = []) :
    s.mute.interpret = .ok t.mute ∨
      ∃ u, s.mute.interpret = .ok u ∧ u.interpret = .ok t.mute := by
  by_cases console : ∃ value rest, s.control = .writing value (.console :: rest)
  · obtain ⟨value, rest, control⟩ := console
    obtain rfl := alone value rest control
    have dropped : s.mute.interpret = .ok (s.mute.goto (.writing value [])) := by
      have control : s.mute.control = .writing value [.console] := control
      simp only [System.interpret, control]
      rfl
    simp only [System.interpret, control, System.writeStep] at interpreted
    split at interpreted
    next v written =>
      obtain rfl := Except.ok.inj interpreted
      left
      rw [dropped]
      have same : v.mute = s.world.mute := World.mute_of_writeConsole written
      show Except.ok (⟨s.world.mute, .writing value [], s.log⟩ : System) =
        .ok ⟨v.mute, .writing value [], s.log⟩
      rw [same]
    next =>
      obtain rfl := Except.ok.inj interpreted
      exact .inr ⟨_, dropped, rfl⟩
  · left
    have away : ∀ value rest, s.control ≠ .writing value (.console :: rest) :=
      fun value rest control => console ⟨value, rest, control⟩
    rw [mute_interpret away, interpreted]
    rfl

theorem mute_handle (s : System) (id : Nat) : s.mute.handle id = (s.handle id).map System.mute := by
  have same : s.mute.world.traffic = s.world.traffic := rfl
  unfold System.handle
  rw [same]
  cases s.world.traffic.handle id <;> rfl

theorem mute_undertake (s : System) (operation : Operation) :
    s.mute.undertake operation = (s.undertake operation).mute := by
  cases operation with
  | switch name =>
    have same : s.mute.world.target = s.world.target := rfl
    unfold System.undertake
    simp only [same]
    split <;> rfl
  | _ => rfl

/-! ## What a step changes -/

/-- The routing of output and input is the same in two worlds. -/
structure SameRouting (w v : World) : Prop where
  target : v.target = w.target
  endpoints : v.endpoints = w.endpoints
  listener : v.listener = w.listener

/-- The steps from one control to the next that change at most the traffic. -/
inductive Follows : Control → Control → Prop where
  | stay (blocked : before = .idle ∨ before = .waiting ∨
      (∃ listener purpose, before = .settling listener purpose) ∨ before = .ending) :
      Follows before before
  | take : Follows (.draining fresh next) (.draining more next)
  | found : Follows (.testing again) .idle
  | again : Follows (.testing again) (.counting .await)
  | wait : Follows (.testing again) .waiting
  | woken : Follows .waiting (.draining [] (.await true))
  | unarmed : Follows (.counting next) (.arming next)
  | armed : Follows (.counting next) next.control
  | arm : Follows (.arming next) next.control
  | written : Follows (.writing value []) .idle
  | finish : Follows (.finishing left) (.finishing rest)
  | cycled : Follows (.finishing left) .idle
  | shut {listener : Nat} : Follows (.shutting listener purpose) (.completing listener left purpose)
  | unshut {listener : Nat} : Follows (.shutting listener purpose) purpose.control
  | complete {listener : Nat} :
      Follows (.completing listener left purpose) (.completing listener rest purpose)
  | completed {listener : Nat} :
      Follows (.completing listener left purpose) (.settling listener purpose)
  | settled {listener : Nat} : Follows (.settling listener purpose) (.disarming listener purpose)
  | disarm {listener : Nat} : Follows (.disarming listener purpose) (.releasing listener purpose)
  | release {listener : Nat} : Follows (.releasing listener purpose) purpose.control
  | opening : Follows (.entering name) (.holding type)
  | hold : Follows (.holding type) (.counting (.listen type))
  | listen {listener : Nat} : Follows (.listening type) (.attaching listener)

/-- What the next step of the interpreter does to the world besides the traffic. -/
inductive Effect (s : System) : System → Prop where
  | follows (follows : Follows s.control after) (traffic : Traffic) (log : List Event) :
      Effect s ⟨{ s.world with traffic }, after, log⟩
  | attach (control : s.control = .draining fresh next) :
      Effect s ⟨{ s.world with endpoints := s.world.endpoints ++ fresh.map .connection },
        next.control (s.world.endpoints ++ fresh.map .connection), s.log⟩
  | write (control : s.control = .writing value (endpoint :: rest))
      (written : s.world.writeByte value endpoint = .ok v) (log : List Event) :
      Effect s ⟨v, .writing value rest, log⟩
  | broke (control : s.control = .writing value (endpoint :: rest)) : Effect s (s.goto .idle)
  | read (control : s.control = .reading) : Effect s ⟨s.world.readLive.1, .idle, s.log⟩
  | enter (control : s.control = .entering name) : Effect s ⟨(s.world.enter name).1, .idle, s.log⟩
  | seat {listener : Nat} (control : s.control = .attaching listener) :
      Effect s (s.attachStep listener)
  | ended (control : s.control = .ending) : Effect s s.endStep

theorem effect_drainStep (control : s.control = .draining fresh next) :
    Effect s (s.drainStep fresh next) := by
  unfold System.drainStep
  split
  · exact .follows (control ▸ .take) _ _
  · exact .attach control

theorem effect_writeStep (control : s.control = .writing value left) :
    Effect s (s.writeStep value left) := by
  cases left with
  | nil => exact .follows (control ▸ .written) s.world.traffic s.log
  | cons endpoint rest =>
    simp only [System.writeStep]
    split
    next v written => exact .write control written _
    next => exact .broke control

theorem effect_shutStep {listener : Nat} (control : s.control = .shutting listener purpose) :
    Effect s (s.shutStep listener purpose) := by
  unfold System.shutStep
  split
  · split
    · exact .follows (control ▸ .unshut) s.world.traffic s.log
    · exact .follows (control ▸ .shut) _ s.log
  · exact .follows (control ▸ .unshut) s.world.traffic s.log

/-- A listener that is not opened leaves the world, and so does one that is about to be. -/
theorem effect_enterStep (control : s.control = .entering name) : Effect s (s.enterStep name) := by
  have entered := Effect.enter control
  unfold World.enter at entered
  unfold System.enterStep
  split
  next target => simpa only [target] using entered
  next target => simpa only [target] using entered
  next target => simpa only [target] using entered
  next target =>
    simp only [target, World.openNetwork] at entered
    split
    next address spelled =>
      simp only [spelled] at entered
      cases refused : World.bindStop? s.world.config address with
      | some stop =>
        simp only [refused] at entered
        simp only [Option.isSome_some, ↓reduceIte]
        exact entered
      | none => exact .follows (control ▸ .opening) s.world.traffic s.log
    next spelled =>
      simp only [spelled] at entered
      exact entered
  next target =>
    simp only [target] at entered
    exact entered

theorem Effect.of_follows {before after : Control} (control : s.control = before)
    (follows : Follows before after) {traffic : Traffic} {log : List Event}
    (same : Except.ok ⟨{ s.world with traffic }, after, log⟩ = (Except.ok t : Except WaitFault System)) :
    Effect s t := by
  obtain rfl := Except.ok.inj same
  exact .follows (control ▸ follows) traffic log

/-- A step that waits changes nothing. -/
theorem Effect.of_stay (blocked : s.control = .idle ∨ s.control = .waiting ∨
    (∃ listener purpose, s.control = .settling listener purpose) ∨ s.control = .ending) :
    Effect s s :=
  .follows (.stay blocked) s.world.traffic s.log

theorem effect_of_interpret (interpreted : s.interpret = .ok t) : Effect s t := by
  unfold System.interpret at interpreted
  dsimp only at interpreted
  cases control : s.control <;> simp only [control] at interpreted
  case idle =>
    obtain rfl := Except.ok.inj interpreted
    exact .of_stay (.inl control)
  case draining =>
    obtain rfl := Except.ok.inj interpreted
    exact effect_drainStep control
  case testing again =>
    refine .of_follows control ?_ interpreted
    split
    · exact .found
    · split
      · exact .again
      · exact .wait
  case waiting =>
    obtain ⟨released, -, done⟩ := ok_of_bind_ok interpreted
    split at done
    · exact .of_follows control .woken done
    · obtain rfl := Except.ok.inj done
      exact .of_stay (.inr (.inl control))
  case counting next =>
    obtain ⟨count, -, done⟩ := ok_of_bind_ok interpreted
    refine .of_follows control ?_ done
    split
    · exact .unarmed
    · exact .armed
  case arming next =>
    obtain ⟨waiters, -, done⟩ := ok_of_bind_ok interpreted
    exact .of_follows control .arm done
  case writing =>
    obtain rfl := Except.ok.inj interpreted
    exact effect_writeStep control
  case reading =>
    obtain rfl := Except.ok.inj interpreted
    exact .read control
  case finishing left =>
    cases left with
    | nil => exact .of_follows control .cycled interpreted
    | cons id left => exact .of_follows control .finish interpreted
  case shutting =>
    obtain rfl := Except.ok.inj interpreted
    exact effect_shutStep control
  case completing left _ =>
    cases left with
    | nil => exact .of_follows control .completed interpreted
    | cons id left => exact .of_follows control .complete interpreted
  case settling listener purpose =>
    obtain ⟨released, -, done⟩ := ok_of_bind_ok interpreted
    split at done
    · exact .of_follows control .settled done
    · obtain rfl := Except.ok.inj done
      exact .of_stay (.inr (.inr (.inl ⟨listener, purpose, control⟩)))
  case disarming =>
    obtain ⟨⟨_, waiters⟩, -, done⟩ := ok_of_bind_ok interpreted
    exact .of_follows control .disarm done
  case releasing =>
    obtain ⟨waiters, -, done⟩ := ok_of_bind_ok interpreted
    exact .of_follows control .release done
  case entering =>
    obtain rfl := Except.ok.inj interpreted
    exact effect_enterStep control
  case holding =>
    obtain ⟨waiters, -, done⟩ := ok_of_bind_ok interpreted
    exact .of_follows control .hold done
  case listening => exact .of_follows control .listen interpreted
  case attaching =>
    obtain rfl := Except.ok.inj interpreted
    exact .seat control
  case ending =>
    obtain ⟨released, -, done⟩ := ok_of_bind_ok interpreted
    split at done
    · obtain rfl := Except.ok.inj done
      exact .ended control
    · obtain rfl := Except.ok.inj done
      exact .of_stay (.inr (.inr (.inr control)))

end TapeLang.Interleaving

import TapeLang.Proofs.Delivery.Answers
import TapeLang.Proofs.Offline

/-!
Switches that cannot be carried out. The network is left before the next target is tried (`departed`),
so a switch that fails there has closed the listener, and the network is the active target all the
same (`Withdraws`). Where no listener is open a switch that fails changes nothing, because a network
without a listener has nothing live (`Bare`). Every event keeps that, and one that does not give the
listener up keeps it open for as long as the network is active (`Tidy.happen_routing`).
-/
namespace TapeLang.Delivery

open Interleaving (initial Reachable Unmisused)
open Source (Block Header Target)

/-- Why a target cannot be made active: nothing has its name, its file cannot be opened, or no listener
can be bound to its address. -/
inductive Obstacle (config : Config) (files : Host.Files) (name : String) : Failure → Prop where
  | unknown (meaningless : Target.ofName? name = none) :
    Obstacle config files name (.unknownTarget name)
  | unopenable {error : Host.OsError} (target : Target.ofName? name = some .file)
      (refused : files.openShared config.filePath = .error (.os error)) :
    Obstacle config files name (.os error)
  | nullPath (target : Target.ofName? name = some .file)
      (refused : files.openShared config.filePath = .error .embeddedNull) :
    Obstacle config files name .embeddedNull
  | unspelled (target : Target.ofName? name = some .http)
      (refused : BindAddress.parse? config.httpAddress = none) :
    Obstacle config files name (.badAddress config.httpAddress)
  | unbindable {address : BindAddress} {error : Host.OsError}
      (target : Target.ofName? name = some .http)
      (spelled : BindAddress.parse? config.httpAddress = some address)
      (refused : World.bindStop? config address = some (.failure (.os error))) :
    Obstacle config files name (.os error)

/-- The port that a switch to the network binds, if it gets that far, exists. -/
def HasPort (config : Config) (name : String) : Prop :=
  ∀ address, Target.ofName? name = some .http →
    BindAddress.parse? config.httpAddress = some address → address.portInRange = true

/-- Whether an event takes the listener from a world that stays on the network: the close does, and a
switch that fails while a listener is open. -/
def GivesUp (w : World) : Event → Prop
  | .switch name => w.listener ≠ none ∧ ∃ stop, (w.switch name).2 = .error stop
  | .close => True
  | _ => False

/-- None of the events gives the listener up. -/
def Orderly (w : World) : List Event → Prop
  | [] => True
  | event :: later => ¬ GivesUp w event ∧ ∀ v, happen w event = .ok v → Orderly v later

/-- Where the network is active without a listener nothing is live. -/
def Bare (w : World) : Prop := w.target = .http → w.listener = none → w.endpoints = []

/-- Where the network is active a listener is open. -/
def Manned (w : World) : Prop := w.target = .http → w.listener ≠ none

/-- What comes of making a target active: it fails or is at fault and changes nothing, or the target is
active. Where there is a port to bind, a fault is a group that was misused. -/
inductive Attempt (w : World) (name : String) : World → Except Stop Unit → Prop where
  | failed {failure : Failure} (obstacle : Obstacle w.config w.files name failure) :
    Attempt w name w (.error (.failure failure))
  | faulted {fault : Fault} (misused : HasPort w.config name → ∃ wait, fault = .wait wait) :
    Attempt w name w (.error (.fault fault))
  | active {v : World} (manned : Manned v) : Attempt w name v (.ok ())

variable {w v : World} {name : String} {result : Except Stop Unit} {stop : Stop} {failure : Failure}
  {event : Event} {events : List Event}

/-! ## Making a target active -/

/-- An address is refused for its host, or for a port that does not exist. -/
theorem bindStop_cases {config : Config} {address : BindAddress}
    (refused : World.bindStop? config address = some stop) :
    (∃ error, stop = .failure (.os error)) ∨
      stop = .fault .portOutOfRange ∧ address.portInRange = false := by
  unfold World.bindStop? at refused
  split at refused
  next beyond =>
    refine .inr ⟨(Option.some.inj refused).symm, ?_⟩
    simp only [BindAddress.portInRange, Bool.and_eq_false_iff, decide_eq_false_iff_not]
    omega
  · split at refused
    · exact .inl ⟨_, (Option.some.inj refused).symm⟩
    · split at refused
      next missing => exact .inr ⟨(Option.some.inj refused).symm, by simpa using missing⟩
      · split at refused
        · exact .inl ⟨_, (Option.some.inj refused).symm⟩
        · simp at refused

theorem Obstacle.uncaught {config : Config} {files : Host.Files}
    (obstacle : Obstacle config files name failure) : failure.kind = .uncaught := by
  cases obstacle <;> rfl

theorem attempt_openFile (target : Target.ofName? name = some .file) :
    Attempt w name w.openFile.1 w.openFile.2 := by
  unfold World.openFile
  cases refused : w.files.openShared w.config.filePath with
  | ok opened => exact .active (by simp [Manned])
  | error fault =>
    cases fault with
    | os error => exact .failed (.unopenable target refused)
    | embeddedNull => exact .failed (.nullPath target refused)

theorem attempt_openNetwork (target : Target.ofName? name = some .http) :
    Attempt w name w.openNetwork.1 w.openNetwork.2 := by
  unfold World.openNetwork
  cases spelled : BindAddress.parse? w.config.httpAddress with
  | none => exact .failed (.unspelled target spelled)
  | some address =>
    dsimp only
    cases refused : World.bindStop? w.config address with
    | some stop =>
      rcases bindStop_cases refused with ⟨error, rfl⟩ | ⟨rfl, missing⟩
      · exact .failed (.unbindable target spelled refused)
      · refine .faulted fun port => ?_
        rw [port address target spelled] at missing
        exact Bool.noConfusion missing
    | none =>
      dsimp only
      cases w.traffic.openListener (MediaType.ofResource w.config.filePath) with
      | ok opened => exact .active fun _ => by simp
      | error fault => exact .faulted fun _ => ⟨fault, rfl⟩

theorem attempt_enter (w : World) (name : String) :
    Attempt w name (w.enter name).1 (w.enter name).2 := by
  unfold World.enter
  cases target : Target.ofName? name with
  | none => exact .failed (.unknown target)
  | some known =>
    cases known with
    | std | tcp => exact .active fun now => Target.noConfusion now
    | file => exact attempt_openFile target
    | http => exact attempt_openNetwork target

theorem Attempt.obstacle (attempt : Attempt w name v result)
    (failed : result = .error (.failure failure)) : Obstacle w.config w.files name failure := by
  cases attempt with
  | failed obstacle =>
    obtain rfl := Stop.failure.inj (Except.error.inj failed)
    exact obstacle
  | faulted => simp at failed
  | active => simp at failed

theorem Attempt.manned (attempt : Attempt w name v result) (entered : result = .ok ()) :
    Manned v := by
  cases attempt with
  | failed | faulted => simp at entered
  | active manned => exact manned

theorem Attempt.fails (attempt : Attempt w name v result) (refused : result = .error stop)
    (unmisused : Unmisused result) (port : HasPort w.config name) :
    ∃ failure, stop = .failure failure := by
  cases attempt with
  | failed => exact ⟨_, (Except.error.inj refused).symm⟩
  | faulted misused =>
    obtain ⟨wait, rfl⟩ := misused port
    exact absurd rfl (unmisused wait)
  | active => simp at refused

/-- What is in the way of a target is what making it active fails for. -/
theorem Obstacle.enter (obstacle : Obstacle w.config w.files name failure) :
    (w.enter name).2 = .error (.failure failure) := by
  cases obstacle with
  | unknown meaningless => simp only [World.enter, meaningless]
  | unopenable target refused | nullPath target refused =>
    simp only [World.enter, target, World.openFile, refused]
  | unspelled target refused => simp only [World.enter, target, World.openNetwork, refused]
  | unbindable target spelled refused =>
    simp only [World.enter, target, World.openNetwork, spelled, refused]

/-! ## Leaving the network -/

theorem closeListener_elsewhere (w : World) : w.closeListener.1 =
    { w with traffic := w.closeListener.1.traffic, listener := none, endpoints := [] } := by
  unfold World.closeListener
  split
  · rfl
  · dsimp only
    split <;> rfl

/-- Where target and listener stay and nobody new is attached, the routing to the network stays. -/
theorem Bare.kept (bare : Bare w) (target : v.target = w.target) (listener : v.listener = w.listener)
    (nobody : (w.listener = none → w.endpoints = []) → v.listener = none → v.endpoints = []) :
    Bare v ∧ (Manned w → Manned v) := by
  constructor
  · intro network
    rw [target] at network
    exact nobody (bare network)
  · intro manned network
    rw [target] at network
    rw [listener]
    exact manned network

theorem Bare.takes (bare : Bare w) (takes : Takes w v) (target : v.target = w.target) :
    Bare v ∧ (Manned w → Manned v) :=
  bare.kept target takes.listener takes.nobody

end TapeLang.Delivery

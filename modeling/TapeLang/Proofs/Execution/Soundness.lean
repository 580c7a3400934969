import TapeLang.Proofs.Execution.Effects
import TapeLang.Proofs.Handles

/-!
Operations as a program calls them. Only where a listener is open does a program wait for a connection
or end a cycle, and so connections are awaited only while a listener is up (`Sound.disarmed`): the close of
a listener takes back what it armed. The console is live alone, and what is attached next to a listener
is connections.
-/
namespace TapeLang.Interleaving

open Http (Connection Listener Traffic)
open Source (Target)

/-- Whether an operation is for an open listener. -/
def Operation.serves : Operation → Bool
  | .awaitConnection | .finishCycle => true
  | _ => false

/-- Whether the operation under way is for an open listener. -/
def Control.serves : Control → Bool
  | .draining _ (.await _) | .testing _ | .waiting | .counting .await | .counting (.finish _)
  | .arming .await | .arming (.finish _) | .finishing _ => true
  | _ => false

/-- A listener is fully closed but for the program that is still held, or none is up. -/
def System.isDisarmed (s : System) : Prop :=
  s.isUp = false ∨ ∃ listener purpose, s.control = .releasing listener purpose

/-- The routing of a world fits the operation under way. -/
structure Wired (w : World) (control : Control) : Prop where
  /-- only connections are attached while a listener is open -/
  attached : w.listener ≠ none → ∀ endpoint ∈ w.endpoints, ∃ id, endpoint = .connection id
  /-- the console is live alone -/
  lone : .console ∈ w.endpoints → w.endpoints = [.console]
  writing : ∀ value left, control = .writing value left → left <:+ w.endpoints
  serving : control.serves = true → w.listener ≠ none

/-- A reachable state of a program that serves connections only where a listener is open. -/
structure Sound (s : System) : Prop where
  reachable : Reachable s
  wired : Wired s.world s.control
  disarmed : s.isDisarmed → s.world.traffic.waiters.count Waiters.connection = .ok 0

variable {s t : System} {w v : World} {before after : Control} {traffic later : Traffic} {id : Nat}
  {c : Connection} {p a u : Nat} {events : List Event}

/-! ## Control -/

theorem serves_purpose (purpose : Purpose) : purpose.control.serves = false := by
  cases purpose <;> rfl

theorem Follows.serves (follows : Follows before after) (serves : after.serves = true) :
    before.serves = true := by
  cases follows with
  | @take _ next => cases next <;> exact serves
  | @unarmed next => cases next <;> exact serves
  | @armed next | @arm next =>
    cases next with
    | listen => simp [Armed.control, Control.serves] at serves
    | await | finish => rfl
  | unshut | release => simp [serves_purpose] at serves
  | stay => exact serves
  | found | again | wait | woken | finish | cycled => rfl
  | _ => simp [Control.serves] at serves

theorem Follows.not_writing (follows : Follows before after) (value : UInt8) (left : List Endpoint) :
    after ≠ .writing value left := by
  rintro rfl
  generalize target : Control.writing value left = after at follows
  cases follows with
  | stay blocked => rcases blocked with rfl | rfl | ⟨_, _, rfl⟩ | rfl <;> simp at target
  | @armed next | @arm next => cases next <;> simp [Armed.control] at target
  | @unshut purpose | @release purpose => cases purpose <;> simp [Purpose.control] at target
  | _ => simp at target

/-- What is at work where a listener may be open has been so. -/
theorem Follows.free (follows : Follows before after) (free : after.place = .free) :
    before.place = .free := by
  cases follows with
  | stay => exact free
  | unarmed | armed | arm => simpa using free
  | unshut | release => simp at free
  | take | found | again | wait | woken | written | finish | cycled => rfl
  | _ => simp [Control.place] at free

/-! ## Routing -/

theorem SameRouting.of_writeByte {value : UInt8} {endpoint : Endpoint}
    (written : w.writeByte value endpoint = .ok v) : SameRouting w v := by
  cases endpoint with
  | console =>
    obtain ⟨console, session, rfl⟩ := World.writeConsole_world written
    exact ⟨rfl, rfl, rfl⟩
  | file | connection =>
    obtain rfl := Except.ok.inj written
    exact ⟨rfl, rfl, rfl⟩

theorem sameRouting_readLive (w : World) : SameRouting w w.readLive.1 := by
  unfold World.readLive
  split
  · exact ⟨rfl, rfl, rfl⟩
  · exact ⟨rfl, rfl, rfl⟩
  all_goals
    unfold World.readConsole
    cases w.console.input.read <;> exact ⟨rfl, rfl, rfl⟩

/-- Where the routing stays, it fits what comes next. -/
theorem Wired.keeps (wired : Wired w before) (same : SameRouting w v)
    (writing : ∀ value left, after = .writing value left → left <:+ w.endpoints)
    (serves : after.serves = true → before.serves = true) : Wired v after where
  attached := by
    rw [same.listener, same.endpoints]
    exact wired.attached
  lone := by
    rw [same.endpoints]
    exact wired.lone
  writing := by
    rw [same.endpoints]
    exact writing
  serving at_ := by
    rw [same.listener]
    exact wired.serving (serves at_)

theorem Wired.idle (wired : Wired w before) (same : SameRouting w v) : Wired v .idle :=
  wired.keeps same (by simp) (by simp [Control.serves])

/-- Nothing is live, or the console alone. -/
theorem Wired.of_few (endpoints : w.endpoints = [] ∨ w.endpoints = [.console] ∧ w.listener = none ∨
    ∃ handle, w.endpoints = [.file handle] ∧ w.listener = none)
    (writing : ∀ value left, after ≠ .writing value left)
    (serves : after.serves = false) : Wired w after where
  attached opened := by
    rcases endpoints with none | ⟨-, unopened⟩ | ⟨_, -, unopened⟩
    · simp [none]
    · exact absurd unopened opened
    · exact absurd unopened opened
  lone live := by
    rcases endpoints with none | ⟨console, -⟩ | ⟨_, file, -⟩
    · simp [none] at live
    · exact console
    · simp [file] at live
  writing value left at_ := absurd at_ (writing value left)
  serving at_ := by simp [serves] at at_

/-- Taking connections over attaches them next to connections, or takes none over. -/
theorem Wired.attach {fresh : List Nat} {next : Drained} (wired : Wired w (.draining fresh next))
    (unattached : w.listener = none → fresh = []) :
    Wired { w with endpoints := w.endpoints ++ fresh.map .connection }
      (next.control (w.endpoints ++ fresh.map .connection)) where
  attached opened endpoint member := by
    rcases List.mem_append.mp member with before | taken
    · exact wired.attached opened endpoint before
    · obtain ⟨id, -, rfl⟩ := List.mem_map.mp taken
      exact ⟨id, rfl⟩
  lone live := by
    have before : .console ∈ w.endpoints := by simpa using live
    have unopened : w.listener = none := by
      cases opened : w.listener with
      | none => rfl
      | some listener =>
        obtain ⟨id, same⟩ := wired.attached (by simp [opened]) _ before
        simp at same
    simp [unattached unopened, wired.lone before]
  writing value left at_ := by
    cases next with
    | broadcast =>
      obtain ⟨-, rfl⟩ := Control.writing.inj at_
      exact List.suffix_refl _
    | await | read => simp [Drained.control] at at_
  serving at_ := by
    cases next with
    | await => exact wired.serving rfl
    | broadcast | read => simp [Drained.control, Control.serves] at at_

theorem Wired.enter (wired : Wired w before) (unopened : w.listener = none) (name : String) :
    Wired (w.enter name).1 .idle := by
  have same : Wired w .idle := wired.idle ⟨rfl, rfl, rfl⟩
  have few (v : World) (endpoints) : Wired v .idle := Wired.of_few endpoints (by simp) rfl
  unfold World.enter
  split
  · exact few _ (.inr (.inl ⟨rfl, unopened⟩))
  · unfold World.openFile
    split
    next handle _ => exact few _ (.inr (.inr ⟨handle, rfl, unopened⟩))
    all_goals exact same
  · unfold World.openNetwork
    split
    · exact same
    · split
      · exact same
      · split
        · exact few _ (.inl rfl)
        · exact same
  · exact few _ (.inl rfl)
  · exact same

theorem Wired.effect (wired : Wired s.world s.control) (guarded : Guarded s)
    (routed : Routed s.world s.control.place) (effect : Effect s t) : Wired t.world t.control := by
  cases effect with
  | follows follows traffic log =>
    exact wired.keeps ⟨rfl, rfl, rfl⟩ (fun value left at_ => absurd at_ (follows.not_writing value left))
      follows.serves
  | attach control =>
    rw [control] at wired
    refine wired.attach fun unopened => ?_
    have fresh := (guarded.unattached unopened).1
    rwa [control] at fresh
  | write control written log =>
    refine wired.keeps (.of_writeByte written) ?_ (by simp [Control.serves])
    intro value left at_
    obtain ⟨rfl, rfl⟩ := Control.writing.inj at_
    exact (List.suffix_cons _ _).trans (wired.writing _ _ control)
  | broke control => exact wired.idle ⟨rfl, rfl, rfl⟩
  | read control => exact wired.idle (sameRouting_readLive s.world)
  | enter control =>
    rw [control] at routed
    exact wired.enter routed _
  | seat control => exact Wired.of_few (.inl rfl) (by simp [System.attachStep]) rfl
  | ended control => exact wired.idle ⟨rfl, rfl, rfl⟩

theorem Wired.leave (s : System) (purpose : Purpose) :
    Wired (s.leave purpose).world (s.leave purpose).control := by
  refine Wired.of_few (.inl rfl) ?_ ?_
  · unfold System.leave
    cases s.world.listener <;> cases purpose <;> simp [Purpose.control]
  · unfold System.leave
    cases s.world.listener <;> cases purpose <;> rfl

theorem Wired.undertake (wired : Wired s.world s.control) {operation : Operation}
    (fits : operation.serves = true → s.world.listener ≠ none) :
    Wired (s.undertake operation).world (s.undertake operation).control := by
  cases operation with
  | awaitConnection =>
    exact { wired with writing := by simp [System.undertake, System.goto], serving := fun _ => fits rfl }
  | broadcast value | read =>
    exact wired.keeps ⟨rfl, rfl, rfl⟩ (by simp [System.undertake, System.goto])
      (by simp [System.undertake, System.goto, Control.serves])
  | finishCycle =>
    exact { attached := by simp [System.undertake], lone := by simp [System.undertake]
            writing := by simp [System.undertake], serving := fun _ => fits rfl }
  | close => exact .leave s .close
  | switch name =>
    unfold System.undertake
    dsimp only
    split
    · exact .leave s (.switch name)
    · exact wired.keeps ⟨rfl, rfl, rfl⟩ (by simp [System.goto]) (by simp [System.goto, Control.serves])

/-! ## Awaited connections -/

/-- No listener is up where control has left one target without one for another. -/
theorem isDisarmed_of_away (away : s.control.place = .away) : s.isDisarmed :=
  .inl (by rw [System.isUp, away]; rfl)

theorem isDisarmed_of_same (same : s.isUp = t.isUp)
    (releasing : ∀ listener purpose, t.control ≠ .releasing listener purpose)
    (disarmed : t.isDisarmed) : s.isDisarmed := by
  rcases disarmed with down | ⟨listener, purpose, control⟩
  · exact .inl (same.trans down)
  · exact absurd control (releasing listener purpose)

/-- A listener is up, and the program not about to be let go of. -/
theorem not_isDisarmed (up : t.isUp = true)
    (releasing : ∀ listener purpose, t.control ≠ .releasing listener purpose) : ¬ t.isDisarmed := by
  rintro (down | ⟨listener, purpose, control⟩)
  · simp [up] at down
  · exact releasing listener purpose control

theorem armed_ne_releasing (next : Armed) (listener : Nat) (purpose : Purpose) :
    next.control ≠ .releasing listener purpose := by
  cases next <;> simp [Armed.control]

theorem Moves.not_releasing (moves : Moves s a u after) (listener : Nat) (purpose : Purpose) :
    after ≠ .releasing listener purpose := by
  cases moves with
  | stay blocked =>
    rintro control
    simp [control] at blocked
  | armed => exact armed_ne_releasing _ _ _
  | @unshut purpose' => cases purpose' <;> simp [Purpose.control]
  | _ => simp

/-- Where the groups are at three counts, no connection is awaited where none is to be. -/
theorem Sound.armed (sound : Sound s) (counts : s.world.traffic.waiters = .counts p a u)
    (disarmed : s.isDisarmed) : a = 0 := by
  have none := sound.disarmed disarmed
  rw [counts, Waiters.counts_connection] at none
  exact Except.ok.inj none

/-- What arms the group does so for an open listener, or for one that is opened. -/
theorem Sound.arms (sound : Sound s) {next : Armed} (control : s.control = .arming next) :
    isUp s.world.listener next.control.place = true := by
  have serving := sound.wired.serving
  rw [control] at serving
  cases next with
  | listen => rfl
  | await | finish => simpa [isUp, Armed.control, Control.place, Option.isSome_iff_ne_none] using serving rfl

theorem Sound.disarmed_interprets (sound : Sound s) (atMost : a ≤ 1)
    (counts : s.world.traffic.waiters = .counts p a u) (interprets : Interprets s p a u t)
    (disarmed : t.isDisarmed) : t.world.traffic.waiters.count Waiters.connection = .ok 0 := by
  have routed := sound.reachable.tallied.routed
  -- the group stays as it was where none was to be awaited
  have kept {held : Nat} (waiters : t.world.traffic.waiters = .counts held a u)
      (before : s.isDisarmed) : t.world.traffic.waiters.count Waiters.connection = .ok 0 := by
    rw [waiters, Waiters.counts_connection, sound.armed counts before]
  cases interprets with
  | @move after moves =>
    refine kept counts ?_
    rcases moves.place routed with place | ⟨away, -⟩
    · refine isDisarmed_of_same ?_ moves.not_releasing disarmed
      simp only [System.isUp, System.goto, place]
    · exact isDisarmed_of_away away
  | take control | write control | writeAway control | read control | readAway control | finish control =>
    refine kept counts (isDisarmed_of_same ?_ (by simp [System.goto, System.record]) disarmed)
    rw [System.isUp, control]
    rfl
  | @drained fresh next control =>
    refine kept counts (isDisarmed_of_same ?_ (by cases next <;> simp [Drained.control]) disarmed)
    simp only [System.isUp, control, place_drained]
    rfl
  | arm control => exact absurd disarmed (not_isDisarmed (sound.arms control) (armed_ne_releasing _))
  | shut | complete | hold | listen | attach =>
    refine absurd disarmed (not_isDisarmed rfl ?_)
    simp [System.goto, System.attachStep]
  | disarm =>
    have none : a - 1 = 0 := by omega
    exact congrArg Except.ok none
  | release control => exact kept rfl (.inr ⟨_, _, control⟩)
  | enter control | ended control => exact kept counts (isDisarmed_of_away (by rw [control]; rfl))

theorem Sound.interpret (sound : Sound s) (interpreted : s.interpret = .ok t) : Sound t := by
  have tallied := sound.reachable.tallied
  obtain ⟨armed, atMost, t', counts, stepped, steps⟩ := tallied.step_cases .interpret
  have stepped : s.interpret = .ok t' := stepped
  obtain rfl := Except.ok.inj (interpreted.symm.trans stepped)
  have effect := effect_of_interpret interpreted
  refine ⟨sound.reachable.interpreted interpreted,
    sound.wired.effect sound.reachable.guarded.2 tallied.routed effect, ?_⟩
  cases steps with
  | interpret interprets => exact sound.disarmed_interprets atMost counts interprets

theorem Sound.arrive (sound : Sound s) (listener : Nat) (body : List UInt8) :
    Sound (s.setTraffic (s.world.traffic.arrive listener body)) where
  reachable := sound.reachable.step (show s.step (.arrive listener body) = .ok _ from rfl)
  wired := sound.wired.keeps ⟨rfl, rfl, rfl⟩ sound.wired.writing fun serves => serves
  disarmed := sound.disarmed

theorem Sound.handle (sound : Sound s) (handled : s.handle id = .ok t) : Sound t := by
  obtain ⟨armed, atMost, t', counts, stepped, steps⟩ := sound.reachable.tallied.step_cases (.handle id)
  have stepped : s.handle id = .ok t' := stepped
  obtain rfl := Except.ok.inj (handled.symm.trans stepped)
  have reachable : Reachable t := sound.reachable.step (show s.step (.handle id) = .ok t from handled)
  cases steps with
  | unknown => exact sound
  | handle known handles =>
    refine ⟨reachable, sound.wired.keeps ⟨rfl, rfl, rfl⟩ sound.wired.writing fun serves => serves, ?_⟩
    intro disarmed
    obtain ⟨left, fewer, waiters⟩ := handles.counts known counts rfl
    have none := sound.armed counts disarmed
    obtain rfl : left = 0 := by omega
    exact congrArg (·.count Waiters.connection) waiters

/-- Where no listener is open between two operations, none is up. -/
theorem isDisarmed_of_unopened (idle : s.control = .idle) (unopened : s.world.listener = none) :
    s.isDisarmed :=
  .inl (by simp [System.isUp, idle, unopened, isUp, Control.place])

theorem isDisarmed_of_leave (idle : s.control = .idle) (purpose : Purpose)
    (disarmed : (s.leave purpose).isDisarmed) : s.isDisarmed := by
  cases opened : s.world.listener with
  | none => exact isDisarmed_of_unopened idle opened
  | some listener =>
    have shuts : (s.leave purpose).control = .shutting listener purpose := by
      simp only [System.leave, opened]
    refine absurd disarmed (not_isDisarmed ?_ (by simp [shuts]))
    rw [System.isUp, shuts]
    rfl

/-- An operation begins with the groups as they are. -/
theorem Sound.isDisarmed_undertake (sound : Sound s) (idle : s.control = .idle) (operation : Operation)
    (disarmed : (s.undertake operation).isDisarmed) : s.isDisarmed := by
  cases operation with
  | awaitConnection | broadcast | read | finishCycle =>
    refine isDisarmed_of_same ?_ ?_ disarmed
    · rw [System.isUp, idle]
      rfl
    · intro listener purpose
      exact Control.noConfusion
  | close => exact isDisarmed_of_leave idle .close disarmed
  | switch name =>
    unfold System.undertake at disarmed
    dsimp only at disarmed
    split at disarmed
    · exact isDisarmed_of_leave idle (.switch name) disarmed
    next away =>
      have routed := sound.reachable.tallied.routed
      rw [idle] at routed
      exact isDisarmed_of_unopened idle (routed.unopened away)

theorem Sound.undertake (sound : Sound s) (idle : s.control = .idle) {operation : Operation}
    (fits : operation.serves = true → s.world.listener ≠ none) : Sound (s.undertake operation) where
  reachable := sound.reachable.begun idle operation
  wired := sound.wired.undertake fits
  disarmed disarmed := by
    rw [(undertake_traffic s operation).1]
    exact sound.disarmed (sound.isDisarmed_undertake idle operation disarmed)

theorem sound_initial : Sound (initial console session files config) where
  reachable := .initial
  wired := ⟨by simp [initial], by simp [initial], by simp [initial], by simp [initial, Control.serves]⟩
  disarmed _ := rfl

/-! ## Whoever is at the console -/

theorem Sound.of_mute {t : System} (sound : Sound s.mute) (world : t.world.mute = s.world.mute)
    (control : t.control = s.control) (log : t.log = s.log) : Sound t.mute := by
  have same : t.mute = s.mute := by simp only [System.mute, world, control, log]
  rwa [same]

/-- The next step of the interpreter misuses no group, and what it leads to is sound. -/
theorem Sound.interpret_mute (sound : Sound s.mute) :
    ∃ t, s.interpret = .ok t ∧ Sound t.mute := by
  have alone : ∀ value rest, s.control = .writing value (.console :: rest) → rest = [] := by
    intro value rest control
    have left : .console :: rest <:+ s.world.endpoints := sound.wired.writing value _ control
    have live : s.world.endpoints = [.console] := sound.wired.lone (left.subset List.mem_cons_self)
    rw [live] at left
    simpa using left.length_le
  have taken : ∃ t, s.interpret = .ok t := by
    cases interpreted : s.interpret with
    | ok t => exact ⟨t, rfl⟩
    | error fault =>
      by_cases console : ∃ value rest, s.control = .writing value (.console :: rest)
      · obtain ⟨value, rest, control⟩ := console
        simp [System.interpret, control] at interpreted
      · obtain ⟨_, _, t, _, stepped, _⟩ := sound.reachable.tallied.step_cases .interpret
        have stepped : s.mute.interpret = .ok t := stepped
        rw [mute_interpret fun value rest control => console ⟨value, rest, control⟩, interpreted]
          at stepped
        simp [Except.map] at stepped
  obtain ⟨t, interpreted⟩ := taken
  refine ⟨t, interpreted, ?_⟩
  rcases mute_interpret_cases interpreted alone with once | ⟨u, first, second⟩
  · exact sound.interpret once
  · exact (sound.interpret first).interpret second

/-- A handler changes nothing but the traffic. -/
theorem handle_same (handled : s.handle id = .ok t) :
    t.world = { s.world with traffic := t.world.traffic } ∧ t.control = s.control := by
  unfold System.handle at handled
  obtain ⟨traffic, -, same⟩ := ok_of_bind_ok handled
  obtain rfl := Except.ok.inj same
  exact ⟨rfl, rfl⟩

theorem Sound.handle_mute (sound : Sound s.mute) (id : Nat) :
    ∃ t, s.handle id = .ok t ∧ Sound t.mute := by
  obtain ⟨_, _, u, _, stepped, _⟩ := sound.reachable.tallied.step_cases (.handle id)
  have stepped : s.mute.handle id = .ok u := stepped
  have after := sound.handle stepped
  rw [mute_handle] at stepped
  obtain ⟨t, handled, rfl⟩ := ok_of_map_ok stepped
  exact ⟨t, handled, after⟩

theorem Sound.undertake_mute (sound : Sound s.mute) (idle : s.control = .idle) {operation : Operation}
    (fits : operation.serves = true → s.world.listener ≠ none) : Sound (s.undertake operation).mute := by
  rw [← mute_undertake]
  exact sound.undertake idle fits

end TapeLang.Interleaving

import TapeLang.Proofs.Interleaving.Closing

/-!
The accounts of listeners and connections, in every order of the steps of the interpreter and the
handlers: what each group counts, that no step misuses one, what a client gets and when, and that
nobody is left waiting, neither a client whose listener was closed nor the program at its end.
-/
namespace TapeLang.Interleaving

open Http (Connection Listener Reply Stage Traffic)

structure Accounted (s : System) : Prop where
  /-- The program is held exactly while a listener is started and not yet fully closed. -/
  program : s.world.traffic.waiters.count Waiters.program = .ok (if s.isUp then 1 else 0)
  /-- A listener is started and not yet fully closed: one is being opened, or there is one whose
  close has not returned. -/
  up : s.isUp = true ↔ s.control.place = .opening ∨
    ∃ listener < s.world.traffic.listeners.size, .closed listener ∉ s.log
  connection : ∃ armed ≤ 1, s.world.traffic.waiters.count Waiters.connection = .ok armed
  /-- The unanswered connections are the handlers between their first step and their last. -/
  write : s.world.traffic.waiters.count Waiters.write = .ok (unanswered s.world.traffic)
  /-- No step of anybody misuses a group. -/
  sound : ∀ action, ∃ t, s.step action = .ok t
  /-- No endpoint is written to after its response was marked as complete. -/
  ordered : Ordered s.log
  replies : ∀ id, (replies id s.log).length ≤ 1
  /-- No connection is both registered and turned away. -/
  decided : ∀ id, .registered id ∈ s.log → .rejected id ∉ s.log
  /-- A connection that was registered gets what was written to it, and one that was turned away is
  told so. -/
  reply : ∀ id reply, .replied id reply ∈ s.log →
    (.registered id ∈ s.log ∧ ∃ type, reply = .answered type (written id s.log)) ∨
    (.rejected id ∈ s.log ∧ reply = .refused 503 "target closed")
  /-- While a close waits for the unanswered connections, none of them waits for the interpreter. -/
  settling : ∀ (listener : Nat) (purpose : Purpose), s.control = .settling listener purpose →
    ∀ id, ¬ Pending s.world.traffic id
  /-- Once the close of a listener has returned, each handler that had registered with it is gone. -/
  closed : ∀ (listener : Nat), .closed listener ∈ s.log → ∀ (id : Nat) (c : Connection),
    s.world.traffic.connections[id]? = some c → c.listener = listener → .registered id ∈ s.log →
      c.stage = .gone
  /-- The wait for the program at its end does not block. -/
  ending : s.control = .ending → s.world.traffic.waiters.isReleased Waiters.program = .ok true

variable {s : System} {id : Nat} {log : List Event}

/-! ## Reading the log -/

theorem registered_mem : .registered id ∈ log ↔ true ∈ verdicts id log := by
  constructor
  · intro member
    exact List.mem_filterMap.mpr ⟨_, member, by simp [Event.verdict?]⟩
  · intro member
    obtain ⟨e, found, told⟩ := List.mem_filterMap.mp member
    cases e <;> simp [Event.verdict?] at told
    subst told
    exact found

theorem rejected_mem : .rejected id ∈ log ↔ false ∈ verdicts id log := by
  constructor
  · intro member
    exact List.mem_filterMap.mpr ⟨_, member, by simp [Event.verdict?]⟩
  · intro member
    obtain ⟨e, found, told⟩ := List.mem_filterMap.mp member
    cases e <;> simp [Event.verdict?] at told
    subst told
    exact found

theorem mem_replies {reply : Reply} (member : .replied id reply ∈ log) : reply ∈ replies id log :=
  List.mem_filterMap.mpr ⟨_, member, by simp [Event.reply?]⟩

theorem Recorded.decided (recorded : Recorded id c log) (registered : .registered id ∈ log) :
    .rejected id ∉ log := by
  intro rejected
  rw [registered_mem, recorded.verdicts, Option.mem_toList] at registered
  rw [rejected_mem, recorded.verdicts, Option.mem_toList] at rejected
  simpa using registered.symm.trans rejected

/-- A reply fits what was decided about its connection, and carries all that was written to it. -/
theorem Recorded.fits {reply : Reply} (recorded : Recorded id c log)
    (replied : .replied id reply ∈ log) :
    (.registered id ∈ log ∧ ∃ type, reply = .answered type (Interleaving.written id log)) ∨
      (.rejected id ∈ log ∧ reply = .refused 503 "target closed") := by
  have sent : c.reply = some reply := by
    have member := mem_replies replied
    rwa [recorded.replies, Option.mem_toList] at member
  have stage := recorded.replied.mp (by simp [sent])
  have told : verdict c = some (isAnswer reply) := by
    rcases stage with stage | stage <;> simp [verdict, stage, sent]
  rw [registered_mem, rejected_mem, recorded.verdicts, told, recorded.written]
  rcases recorded.reply reply sent with rfl | ⟨-, type, rfl⟩
  · exact .inr ⟨by simp [isAnswer], rfl⟩
  · exact .inl ⟨by simp [isAnswer], type, rfl⟩

/-! ## Listeners that are up -/

theorem lt_size_of_closedAt {traffic : Traffic} {listener : Nat} {closed : Bool}
    (known : closedAt traffic listener = some closed) : listener < traffic.listeners.size := by
  obtain ⟨l, found, -⟩ := Option.map_eq_some_iff.mp known
  exact (Array.getElem?_eq_some_iff.mp found).1

theorem Routed.isOpen (routed : Routed s.world s.control.place) {listener : Nat}
    (current : s.current = some listener) : IsOpen s.world.traffic listener := by
  rw [System.current] at current
  cases place : s.control.place with
  | free =>
    rw [place] at routed current
    exact (routed listener current).2
  | attaching | shutting =>
    rw [place] at routed current
    obtain rfl := Option.some.inj current
    exact routed.2
  | away | opening | closing =>
    rw [place] at current
    simp [currentOf] at current

theorem isUp_iff : s.isUp = true ↔ s.control.place = .opening ∨
    ∃ listener, s.current = some listener ∨ s.control.closing? = some listener := by
  rw [System.isUp, System.current]
  cases s.control with
  | counting next | arming next =>
    cases next <;>
      simp [isUp, currentOf, Control.place, Control.closing?, Option.isSome_iff_exists]
  | _ => simp [isUp, currentOf, Control.place, Control.closing?, Option.isSome_iff_exists]

/-- A listener is up that is open or being closed, and these are those whose close has not
returned. -/
theorem Confined.isUp_iff (confined : Confined s) (routed : Routed s.world s.control.place) :
    s.isUp = true ↔ s.control.place = .opening ∨
      ∃ listener < s.world.traffic.listeners.size, .closed listener ∉ s.log := by
  rw [Interleaving.isUp_iff]
  refine or_congr_right ⟨?_, ?_⟩
  · rintro ⟨listener, current | closing⟩
    · have opened := routed.isOpen current
      refine ⟨listener, lt_size_of_closedAt opened, ?_⟩
      intro returned
      have shut := (confined.shut listener).mpr (.inl returned)
      exact absurd (opened.symm.trans shut) (by simp)
    · have shut := (confined.shut listener).mpr (.inr closing)
      exact ⟨listener, lt_size_of_closedAt shut, confined.once listener closing⟩
  · rintro ⟨listener, within, unreturned⟩
    refine ⟨listener, ?_⟩
    have known : closedAt s.world.traffic listener =
        some s.world.traffic.listeners[listener].closed := by
      simp [closedAt, within]
    cases closed : s.world.traffic.listeners[listener].closed with
    | false =>
      rw [closed] at known
      exact .inl (confined.current listener known)
    | true =>
      rw [closed] at known
      exact .inr (((confined.shut listener).mp known).resolve_left unreturned)

/-- A close that has returned is not under way. -/
theorem Confined.settled (confined : Confined s) {listener : Nat} (returned : .closed listener ∈ s.log) :
    s.control.unsettled? ≠ some listener := by
  intro unsettled
  have closing : s.control.closing? = some listener := by
    cases control : s.control <;> simp_all [Control.unsettled?, Control.closing?]
  exact confined.once listener closing returned

/-! ## All accounts -/

/-- In every reachable state, the accounts of listeners and connections are right. -/
theorem accounted_of_reachable (reachable : Reachable s) : Accounted s := by
  have tallied := reachable.tallied
  have ledger := reachable.ledger
  have confined := reachable.confined
  obtain ⟨armed, atMost, counts, -⟩ := tallied.counts
  constructor
  case program => rw [counts]; rfl
  case up => exact confined.isUp_iff tallied.routed
  case connection => exact ⟨armed, atMost, by rw [counts]; rfl⟩
  case write => rw [counts]; rfl
  case sound =>
    intro action
    obtain ⟨_, _, t, _, stepped, _⟩ := tallied.step_cases action
    exact ⟨t, stepped⟩
  case ordered => exact ledger.ordered
  case replies =>
    intro id
    rw [(ledger.recorded id).replies]
    cases (connectionAt s.world.traffic id).reply <;> simp
  case decided => exact fun id registered => (ledger.recorded id).decided registered
  case reply => exact fun id reply replied => (ledger.recorded id).fits replied
  case settling => exact fun listener purpose control => reachable.settling control
  case closed =>
    intro listener returned id c known own registered
    have shut : IsShut s.world.traffic listener := (confined.shut listener).mpr (.inl returned)
    apply reachable.cleared listener shut (confined.settled returned) id
    refine ⟨c, known, own, rfl, ?_⟩
    have recorded := ledger.recorded id
    rw [connectionAt_of_known known] at recorded
    rwa [registered_mem, recorded.verdicts, Option.mem_toList] at registered
  case ending =>
    intro control
    rw [counts, System.isUp, control]
    rfl

/-- One connection is served; another arrives while its listener closes. -/
def turnedAwayAtClose : List Action :=
  .begin (.switch "http") :: List.replicate 6 .interpret ++
    .arrive 0 [] :: List.replicate 3 (.handle 0) ++
    .begin .awaitConnection :: List.replicate 3 .interpret ++
    .begin (.broadcast 65) :: List.replicate 3 .interpret ++
    .begin .finishCycle :: List.replicate 4 .interpret ++ List.replicate 3 (.handle 0) ++
    .begin (.switch "std") :: .interpret :: .arrive 0 [] :: List.replicate 4 (.handle 1) ++
    List.replicate 6 .interpret

/-- The state that `turnedAwayAtClose` leads to. -/
def turnedAway : System where
  world :=
    { traffic :=
        { listeners := #[{ contentType := some "text/plain", closed := true }]
          connections :=
            #[{ listener := 0, input := [], output := #[65], finished := true, stage := .gone
                reply := some (.answered "text/plain" [65]) },
              { listener := 0, input := [], stage := .gone
                reply := some (.refused 503 "target closed") }] } }
  log :=
    [.closed 0, .finished 0, .replied 1 (.refused 503 "target closed"), .rejected 1,
      .replied 0 (.answered "text/plain" [65]), .finished 0, .wrote 0 65, .registered 0]

set_option maxRecDepth 2000 in
theorem turnedAwayAtClose_ran : (initial {} none {} {}).run turnedAwayAtClose = .ok turnedAway := by
  rfl

theorem accounted_of_reachable_turned_away : Reachable turnedAway ∧ Accounted turnedAway := by
  have reachable : Reachable turnedAway := Reachable.initial.run turnedAwayAtClose_ran
  exact ⟨reachable, accounted_of_reachable reachable⟩

end TapeLang.Interleaving

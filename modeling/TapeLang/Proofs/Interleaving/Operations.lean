import TapeLang.Proofs.Interleaving.Advances

/-!
The operations of a world are runs of the steps here. An operation goes through without a pause: it
takes over the whole inbox at once, and where it lets handlers go on, each goes as far as it can. That
is one of the orders in which the steps of the interpreter and the handlers may come, so a world that
is reached by operations is reachable, and what holds of every reachable state holds of it. None of
the operations misuses a group.
-/
namespace TapeLang.Interleaving

open Http (Connection Listener Reply Stage Traffic)

variable {s t : System} {w : World} {traffic : Traffic} {id : Nat} {log : List Event}

theorem Reachable.interpreted (reachable : Reachable s) (interpreted : s.interpret = .ok t) :
    Reachable t := by
  have stepped : s.step .interpret = .ok t := interpreted
  exact reachable.step stepped

theorem Reachable.begun (reachable : Reachable s) (idle : s.control = .idle) (operation : Operation) :
    Reachable (s.undertake operation) := by
  have stepped : s.step (.begin operation) = .ok (s.undertake operation) := by
    simp only [System.step, idle, ↓reduceIte]
  exact reachable.step stepped

theorem Reachable.counted (reachable : Reachable s) :
    ∃ held armed rest, s.world.traffic.waiters = .counts held armed rest := by
  obtain ⟨armed, -, counts, -⟩ := reachable.tallied.counts
  exact ⟨_, armed, _, counts⟩

/-! ## Data -/

theorem Reachable.read (reachable : Reachable ⟨w, .idle, log⟩) :
    Reachable ⟨w.read.1, .idle, log⟩ :=
  (reachable.begun rfl .read).completes (completes_read w log)

theorem Reachable.broadcast (reachable : Reachable ⟨w, .idle, log⟩) (value : UInt8) :
    ∃ log', Reachable ⟨(w.broadcast value).1, .idle, log'⟩ := by
  obtain ⟨log', completes⟩ := completes_broadcast w value log
  exact ⟨log', (reachable.begun rfl (.broadcast value)).completes completes⟩

/-- How a wait for a connection comes out: one is attached, or the interpreter is blocked. -/
def Awaits (w : World) (found : Bool) (log : List Event) : Prop :=
  if found then Reachable ⟨w, .idle, log⟩
  else Reachable ⟨w, .waiting, log⟩ ∧ System.IsBlocked ⟨w, .waiting, log⟩

/-- Waiting for a connection is a run of the steps. -/
theorem Reachable.awaitConnection (reachable : Reachable ⟨w, .idle, log⟩) :
    ∃ w' found, w.awaitConnection = .ok (w', found) ∧ Awaits w' found log := by
  have draining : Reachable ⟨w, .draining [] (.await false), log⟩ :=
    reachable.begun rfl .awaitConnection
  obtain ⟨_, _, _, counts⟩ := reachable.counted
  obtain ⟨v, found, ran, awaits⟩ := awaits_connection counts log
  refine ⟨v, found, ran, ?_⟩
  cases found with
  | true => exact draining.attaches awaits
  | false => exact ⟨draining.advances awaits.1, rfl, awaits.2⟩

/-! ## Completing responses -/

theorem Handled.reachable_at (handled : Handled s t) : Reachable ⟨t.world, s.control, t.log⟩ :=
  handled.control ▸ handled.reachable

/-- The end of a cycle is a run of the steps. -/
theorem Reachable.finishCycle (reachable : Reachable ⟨w, .idle, log⟩) :
    ∃ w' log', w.finishCycle = .ok w' ∧ Reachable ⟨w', .idle, log'⟩ := by
  have begun := reachable.begun rfl .finishCycle
  obtain ⟨_, _, _, counts⟩ := reachable.counted
  obtain ⟨traffic, rearmed, -, arming⟩ := advances_rearm (w := { w with endpoints := [] }) counts
    (.finish (w.endpoints.filterMap connection?)) log
  obtain ⟨log', finishing⟩ := advances_finish (w.endpoints.filterMap connection?)
    { w with endpoints := [], traffic } log
  obtain ⟨t, settled, -, -⟩ := (begun.advances (arming.trans finishing)).settle
  have rearmed : w.traffic.rearm = .ok traffic := rearmed
  have settled : ((w.endpoints.filterMap connection?).foldl Traffic.finish traffic).settle =
    .ok t.world.traffic := settled
  have cycled : w.finishCycle = .ok { w with endpoints := [], traffic := t.world.traffic } := by
    simp only [finishCycle_eq, rearmed, settled, bind, Except.bind]
    rfl
  obtain ⟨log'', completes⟩ := completes_finishCycle counts cycled log
  exact ⟨_, log'', cycled, begun.completes completes⟩

/-! ## Switching -/

/-- While a close waits, handlers that go as far as they can answer everybody. -/
theorem Reachable.closable (reachable : Reachable ⟨w, .idle, log⟩) (opened : w.listener = some id) :
    Closable w.traffic id := by
  have shutting : Reachable ⟨{ w with listener := none, endpoints := [] }, .shutting id .close, log⟩ := by
    have begun := reachable.begun rfl .close
    simpa only [System.undertake, System.leave, opened] using begun
  obtain ⟨l, found, isOpen⟩ := Option.map_eq_some_iff.mp shutting.tallied.routed.2
  have found : w.traffic.listeners[id]? = some l := found
  obtain ⟨log', settling⟩ := advances_shut (w := { w with listener := none, endpoints := [] }) found isOpen
    .close log
  obtain ⟨t, ran, handled, answered⟩ := (shutting.advances settling).settle
  have settled : Reachable ⟨t.world, .settling id .close, t.log⟩ := handled.reachable_at
  obtain ⟨armed, atMost, counts, -⟩ := settled.tallied.counts
  refine ⟨l, t.world.traffic, armed, found, isOpen, ran, ?_, atMost⟩
  rw [← answered id .close rfl]
  exact counts

/-- The close of a listener succeeds, and nothing is counted after it. -/
theorem Reachable.closeListener (reachable : Reachable ⟨w, .idle, log⟩) :
    w.closeListener.2 = .ok () ∧
      (w.listener ≠ none → w.closeListener.1.traffic.waiters = .counts 0 0 0) := by
  obtain ⟨closed, counts, -⟩ := advances_leave (fun _ => reachable.closable) .close log
  exact ⟨closed, counts⟩

/-- Switching to another target is a run of the steps, and misuses no group. -/
theorem Reachable.switch (reachable : Reachable ⟨w, .idle, log⟩) (name : String) :
    Unmisused (w.switch name).2 ∧ ∃ log', Reachable ⟨(w.switch name).1, .idle, log'⟩ := by
  obtain ⟨_, _, _, counts⟩ := reachable.counted
  obtain ⟨unmisused, log', completes⟩ := completes_switch counts (fun _ => reachable.closable) name log
  exact ⟨unmisused, log', (reachable.begun rfl (.switch name)).completes completes⟩

/-! ## The end, and clients -/

/-- Nothing holds the program once no listener is open. -/
theorem Reachable.unheld (reachable : Reachable ⟨w, .idle, log⟩) :
    ∃ armed rest, w.closeListener.1.traffic.waiters = .counts 0 armed rest := by
  obtain ⟨-, -, log', leaving⟩ := advances_leave (fun _ => reachable.closable) .close log
  obtain ⟨armed, -, counts, -⟩ := ((reachable.begun rfl .close).advances leaving).tallied.counts
  exact ⟨armed, _, counts⟩

/-- The close of a world is a run of the steps. -/
theorem Reachable.close (reachable : Reachable ⟨w, .idle, log⟩) :
    w.close.2 = .ok () ∧ ∃ log', Reachable ⟨w.close.1, .idle, log'⟩ := by
  obtain ⟨_, _, counts⟩ := reachable.unheld
  obtain ⟨closed, log', completes⟩ := completes_close (fun _ => reachable.closable) counts log
  exact ⟨closed, log', (reachable.begun rfl .close).completes completes⟩

/-- A client that connects, and its handler going as far as it can, is a run of the steps. -/
theorem Reachable.connect (reachable : Reachable ⟨w, .idle, log⟩) (body : List UInt8) :
    ∃ w' log', w.connect body = .ok w' ∧ Reachable ⟨w', .idle, log'⟩ := by
  unfold World.connect
  cases opened : w.listener with
  | none => exact ⟨w, log, rfl, reachable⟩
  | some id =>
    have arrived : Reachable ⟨{ w with traffic := w.traffic.arrive id body }, .idle, log⟩ :=
      reachable.step (show System.step _ (.arrive id body) = _ from rfl)
    obtain ⟨t, settled, handled, -⟩ := arrived.settle
    have settled : (w.traffic.arrive id body).settle = .ok t.world.traffic := settled
    refine ⟨t.world, t.log, ?_, handled.reachable_at⟩
    simp only [settled, bind, Except.bind]
    rw [handled.world, ← opened]
    rfl

end TapeLang.Interleaving

import TapeLang.Proofs.Delivery.Muted
import TapeLang.Proofs.Delivery.Settling

/-!
Worlds between two operations. Each connection waits in the inbox of the open listener or attached, or
it is gone (`Tidy`). Once responses are marked as complete and handlers have gone on, the connections
that waited for them are answered, and all others are as they were (`Becomes.of_finishes`).
-/
namespace TapeLang.Delivery

open Http (Connection Listener Reply Stage Traffic)
open Interleaving

/-- The connections that the open listener has registered and nobody has attached yet. -/
def queue (w : World) : List Nat := inboxOf w.traffic w.listener

/-- A connection that got the response that was written to it. -/
def answered (type : String) (c : Connection) : Connection :=
  { c with finished := true, stage := .gone, reply := some (.answered type c.output.toList) }

/-- What became of the connections; none came and none was lost. -/
structure Becomes (t u : Traffic) (r : Nat → Connection → Connection → Prop) : Prop where
  size : u.connections.size = t.connections.size
  known : ∀ (id : Nat) (c : Connection), t.connections[id]? = some c →
    ∃ d, u.connections[id]? = some d ∧ r id c d

/-- A world between two operations, whatever has become of its console and debug session. -/
structure Tidy (w : World) : Prop where
  reachable : ∃ log, Reachable ⟨w.mute, .idle, log⟩
  settled : Settled w.traffic
  /-- only connections are attached while a listener is open -/
  routed : w.listener ≠ none → ∀ endpoint ∈ w.endpoints, ∃ id, endpoint = .connection id
  /-- the console is live alone -/
  lone : .console ∈ w.endpoints → w.endpoints = [.console]

/-- The inbox was taken over, and nothing else happened to the routing. -/
structure Takes (w v : World) : Prop where
  listener : v.listener = w.listener
  endpoints : v.endpoints = w.endpoints ++ (queue w).map .connection
  drained : queue v = []

variable {w v : World} {t u : Traffic} {id other listener : Nat} {c : Connection} {l : Listener}
  {r r' : Nat → Connection → Connection → Prop}

/-! ## Connections that become others -/

theorem Becomes.of_map {f : Nat → Connection → Connection}
    (mapped : ∀ id : Nat, u.connections[id]? = t.connections[id]?.map (f id)) :
    Becomes t u fun id c d => d = f id c where
  size := by
    have same (n : Nat) : u.connections.size ≤ n ↔ t.connections.size ≤ n := by
      rw [← Array.getElem?_eq_none_iff, mapped n, Option.map_eq_none_iff, Array.getElem?_eq_none_iff]
    exact Nat.le_antisymm ((same _).mpr (Nat.le_refl _)) ((same _).mp (Nat.le_refl _))
  known id c known := ⟨f id c, by rw [mapped id, known, Option.map_some], rfl⟩

theorem Becomes.of_same (same : u.connections = t.connections) :
    Becomes t u fun _ c d => d = c :=
  Becomes.of_map fun id => by rw [same, Option.map_id']

theorem Becomes.mono (becomes : Becomes t u r)
    (implies : ∀ id c d, t.connections[id]? = some c → r id c d → r' id c d) : Becomes t u r' where
  size := becomes.size
  known id c known := by
    obtain ⟨d, known', related⟩ := becomes.known id c known
    exact ⟨d, known', implies id c d known related⟩

/-- What a connection was before. -/
theorem Becomes.before (becomes : Becomes t u r) {d : Connection}
    (known : u.connections[id]? = some d) : ∃ c, t.connections[id]? = some c ∧ r id c d := by
  obtain ⟨within, -⟩ := Array.getElem?_eq_some_iff.mp known
  rw [becomes.size] at within
  obtain ⟨d', known', related⟩ := becomes.known id _ (Array.getElem?_eq_getElem within)
  obtain rfl := Option.some.inj (known.symm.trans known')
  exact ⟨_, Array.getElem?_eq_getElem within, related⟩

/-- Where nobody's stage or completion changed, handlers still cannot go on. -/
theorem Becomes.settled (becomes : Becomes t u r) (settled : Settled t)
    (same : ∀ id c d, r id c d → d.stage = c.stage ∧ d.finished = c.finished) : Settled u := by
  intro id d known
  obtain ⟨c, known', related⟩ := becomes.before known
  obtain ⟨stage, finished⟩ := same id c d related
  rw [stage, finished]
  exact settled id c known'

/-! ## Where connections are -/

theorem tidy_initial (console : Console) (session : Option Debug.Session) (files : Host.Files)
    (config : Config) : Tidy (initial console session files config).world :=
  ⟨⟨[], .initial⟩, by simp [Settled, initial], by simp [initial], by simp [initial]⟩

/-- The console and the debug session do not matter. -/
theorem Tidy.of_mute (tidy : Tidy w) (same : v.mute = w.mute) : Tidy v := by
  rw [World.eq_of_mute same]
  exact ⟨tidy.reachable, tidy.settled, tidy.routed, tidy.lone⟩

theorem Tidy.guarded (tidy : Tidy w) :
    ∃ log, Registry w.traffic ∧ Guarded ⟨w.mute, .idle, log⟩ := by
  obtain ⟨log, reachable⟩ := tidy.reachable
  exact ⟨log, reachable.guarded⟩

theorem mem_attached (log : List Interleaving.Event) :
    id ∈ System.attached ⟨w.mute, .idle, log⟩ ↔ .connection id ∈ w.endpoints := by
  simp only [System.attached, World.mute, List.mem_filterMap]
  constructor
  · rintro ⟨endpoint, member, same⟩
    cases endpoint with
    | connection other =>
      obtain rfl := Option.some.inj same
      exact member
    | console | file => simp [connection?] at same
  · exact fun member => ⟨_, member, rfl⟩

theorem Tidy.pending (tidy : Tidy w) (live : id ∈ queue w ∨ .connection id ∈ w.endpoints) :
    ∃ c, w.traffic.connections[id]? = some c ∧ c.stage = .waiting ∧ c.finished = false := by
  obtain ⟨log, -, guarded⟩ := tidy.guarded
  have member : id ∈ System.live ⟨w.mute, .idle, log⟩ := by
    apply List.mem_append.mpr
    rcases live with queued | attached
    · exact .inl queued
    · exact .inr (List.mem_append_right [] ((mem_attached log).mpr attached))
  obtain ⟨c, known, -, unfinished⟩ := guarded.custody.pending id member
  obtain ⟨waiting, -⟩ | ⟨gone, -⟩ := tidy.settled id c known
  · exact ⟨c, known, waiting, unfinished⟩
  · obtain ⟨c', known', stage, -⟩ := guarded.custody.pending id member
    obtain rfl := Option.some.inj (known.symm.trans known')
    simp [gone] at stage

/-- No connection is attached twice, and none that is attached is still in the inbox. -/
theorem Tidy.nodup (tidy : Tidy w) :
    (queue w ++ w.endpoints.filterMap connection?).Nodup := by
  obtain ⟨log, -, guarded⟩ := tidy.guarded
  exact guarded.custody.nodup

theorem Tidy.unattached (tidy : Tidy w) (unopened : w.listener = none) :
    .connection id ∉ w.endpoints := by
  obtain ⟨log, -, guarded⟩ := tidy.guarded
  intro member
  have attached := (mem_attached log).mpr member
  rw [(guarded.unattached unopened).2] at attached
  exact List.not_mem_nil attached

theorem Tidy.opened (tidy : Tidy w) (opened : w.listener = some listener) :
    ∃ l, w.traffic.listeners[listener]? = some l ∧ l.closed = false := by
  obtain ⟨log, reachable⟩ := tidy.reachable
  exact Option.map_eq_some_iff.mp (reachable.tallied.routed listener opened).2

/-- Whoever waits is going to be answered when the open listener closes. -/
theorem Tidy.issued (tidy : Tidy w) (known : w.traffic.connections[id]? = some c)
    (waiting : c.stage = .waiting) :
    ∃ listener l, w.listener = some listener ∧ w.traffic.listeners[listener]? = some l ∧
      id ∈ l.issued := by
  obtain ⟨log, reachable⟩ := tidy.reachable
  obtain ⟨-, unfinished⟩ | ⟨gone, -⟩ := tidy.settled id c known
  · obtain ⟨listener, l, found, opened, member⟩ | detached :=
      reachable.covered id ⟨c, known, .inr waiting, unfinished⟩
    · have isOpen : IsOpen w.traffic listener := Option.map_eq_some_iff.mpr ⟨l, found, opened⟩
      exact ⟨listener, l, reachable.confined.current listener isOpen, found, member⟩
    · exact absurd detached List.not_mem_nil
  · simp [waiting] at gone

/-- Whoever was registered belongs to a listener that is there. -/
theorem Tidy.hosted (tidy : Tidy w) (known : w.traffic.connections[id]? = some c)
    (registered : verdict c = some true) : w.traffic.listeners[c.listener]? ≠ none := by
  obtain ⟨log, reachable⟩ := tidy.reachable
  have hosted : closedAt w.traffic c.listener ≠ none :=
    reachable.hosted id c.listener c.stage ⟨c, known, rfl, rfl, registered⟩
  intro missing
  exact hosted (by simp only [closedAt, missing, Option.map_none])

theorem verdict_waiting (waiting : c.stage = .waiting) : verdict c = some true := by
  rw [verdict, waiting]

theorem Tidy.counts (tidy : Tidy w) : ∃ p a rest, w.traffic.waiters = .counts p a rest := by
  obtain ⟨log, reachable⟩ := tidy.reachable
  exact reachable.counted

/-! ## Completing responses -/

/-- Marks a connection as complete, if it is one of those that are to be. -/
def marked (ids : List Nat) (id : Nat) (c : Connection) : Connection :=
  if id ∈ ids then { c with finished := true } else c

theorem getElem?_finishes (ids : List Nat) (t : Traffic) :
    (ids.foldl Traffic.finish t).listeners = t.listeners ∧
      ∀ id : Nat, (ids.foldl Traffic.finish t).connections[id]? =
        t.connections[id]?.map (marked ids id) := by
  induction ids generalizing t with
  | nil => exact ⟨rfl, fun id => by cases known : t.connections[id]? <;> simp [marked, known]⟩
  | cons first rest ih =>
    obtain ⟨listeners, connections⟩ := ih (t.finish first)
    refine ⟨listeners, fun id => ?_⟩
    rw [List.foldl_cons, connections id, Traffic.finish, getElem?_update]
    cases t.connections[id]? with
    | none => simp
    | some c =>
      by_cases same : first = id
      · subst same
        by_cases again : first ∈ rest <;> simp [marked, again]
      · simp [marked, same, Ne.symm same]

theorem marked_stage (ids : List Nat) (id : Nat) (c : Connection) :
    (marked ids id c).stage = c.stage ∧ (marked ids id c).listener = c.listener := by
  unfold marked
  split <;> exact ⟨rfl, rfl⟩

theorem marked_finished (ids : List Nat) (id : Nat) (finished : c.finished = true) :
    marked ids id c = c := by
  unfold marked
  split
  · rw [← finished]
  · rfl

/-- Once responses were marked as complete and handlers went on, those connections are answered. -/
theorem Becomes.of_finishes (settled : Settled t) {ids : List Nat}
    (hosted : ∀ (id : Nat) (c : Connection), t.connections[id]? = some c → c.stage = .waiting →
      t.listeners[c.listener]? ≠ none)
    (ran : (ids.foldl Traffic.finish t).settle = .ok u) :
    Settled u ∧ u.listeners = t.listeners ∧ Becomes t u fun id c d =>
      (id ∈ ids → c.stage = .waiting → ∃ type, d = answered type c) ∧
      (id ∉ ids ∨ c.stage = .gone → d = c) := by
  obtain ⟨kept, finished⟩ := getElem?_finishes ids t
  have quiet : Quiet (ids.foldl Traffic.finish t) := by
    intro id c known
    rw [finished id] at known
    obtain ⟨before, known', rfl⟩ := Option.map_eq_some_iff.mp known
    obtain ⟨waiting, -⟩ | ⟨gone, complete⟩ := settled id before known'
    · obtain ⟨stage, own⟩ := marked_stage ids id before
      rw [Rests, stage, own, kept]
      exact ⟨.inl waiting, hosted id before known'⟩
    · rw [marked_finished ids id complete]
      exact ⟨.inr ⟨gone, complete⟩, fun waiting => by simp [gone] at waiting⟩
  obtain ⟨listeners, connections⟩ := settle_completed quiet ran
  refine ⟨settled_of_completed quiet connections, listeners.trans kept, ?_⟩
  have mapped (id : Nat) : u.connections[id]? =
      t.connections[id]?.map fun c => completed t.listeners (marked ids id c) := by
    rw [connections id, finished id, Option.map_map, kept]
    rfl
  refine (Becomes.of_map mapped).mono ?_
  rintro id c d known rfl
  constructor
  · intro member waiting
    obtain ⟨l, found⟩ := Option.ne_none_iff_exists'.mp (hosted id c known waiting)
    refine ⟨l.contentType.getD (MediaType.sniff c.output.toList), ?_⟩
    have complete : (marked ids id c).finished = true := by rw [marked, if_pos member]
    rw [marked, if_pos member] at complete ⊢
    exact completed_of_finished waiting complete found
  · intro kept
    obtain ⟨waiting, unfinished⟩ | ⟨gone, complete⟩ := settled id c known
    · have absent : id ∉ ids := kept.resolve_right (by simp [waiting])
      rw [marked, if_neg absent]
      exact completed_of_unfinished unfinished
    · rw [marked_finished ids id complete]
      exact completed_of_gone gone

end TapeLang.Delivery

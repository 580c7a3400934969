import TapeLang.Proofs.Delivery.Tidy

/-!
What the operations of a world do to its connections. Reading, writing and waiting attach what is in
the inbox; a byte goes to all that are attached; the end of a cycle answers the attached ones, and
whatever closes the listener answers all. None of the operations misuses a group, so each has a
result.
-/
namespace TapeLang.Delivery

open Http (Connection Listener Reply Stage Traffic)
open Source (Target)
open Interleaving

variable {w v : World} {t u : Traffic} {id other listener : Nat} {c : Connection} {l : Listener}

/-! ## Taking over the inbox -/

theorem drain_cases (w : World) :
    (queue w = [] ∧ w.drain = w) ∨ ∃ id l, w.listener = some id ∧
      w.traffic.listeners[id]? = some l ∧ queue w = l.inbox ∧ l.inbox ≠ [] ∧
      w.drain = attach (withInbox w id l []) l.inbox := by
  have stays (nobody : ∀ id, w.listener = some id → w.traffic.drain id = (w.traffic, [])) :
      w.drain = w := by
    unfold World.drain
    split
    next => rfl
    next id opened =>
      rw [nobody id opened]
      simp only [List.map_nil, List.append_nil]
  cases opened : w.listener with
  | none => exact .inl ⟨by simp [queue, opened, inboxOf], stays (by simp [opened])⟩
  | some id =>
    cases found : w.traffic.listeners[id]? with
    | none =>
      left
      refine ⟨by simp [queue, opened, inboxOf, found], stays ?_⟩
      intro other opened'
      obtain rfl := Option.some.inj (opened.symm.trans opened')
      simp only [Traffic.drain, found]
    | some l =>
      have inbox : queue w = l.inbox := by simp [queue, opened, inboxOf, found]
      by_cases empty : l.inbox = []
      · left
        refine ⟨inbox.trans empty, stays ?_⟩
        intro other opened'
        obtain rfl := Option.some.inj (opened.symm.trans opened')
        simp [Traffic.drain, found, empty]
      · right
        refine ⟨id, l, rfl, found, inbox, empty, ?_⟩
        simp [World.drain, opened, Traffic.drain, found, empty, attach, withInbox, setListener]

theorem drain_connections (w : World) : w.drain.traffic.connections = w.traffic.connections := by
  obtain ⟨-, same⟩ | ⟨id, l, -, -, -, -, taken⟩ := drain_cases w
  · rw [same]
  · rw [taken]
    rfl

theorem drain_takes (w : World) : Takes w w.drain := by
  obtain ⟨empty, same⟩ | ⟨id, l, opened, found, inbox, -, taken⟩ := drain_cases w
  · rw [same]
    exact ⟨rfl, by simp [empty], empty⟩
  · rw [taken]
    refine ⟨rfl, by rw [inbox]; rfl, ?_⟩
    have now : (setListener w.traffic id { l with inbox := [] }).listeners[id]? =
        some { l with inbox := [] } := (getElem?_setListener found _ id).trans (if_pos rfl)
    show inboxOf (setListener w.traffic id { l with inbox := [] }) w.listener = []
    simp only [inboxOf, opened, Option.bind_some, now]

theorem drain_elsewhere (w : World) :
    w.drain = { w with traffic := w.drain.traffic, endpoints := w.drain.endpoints } := by
  unfold World.drain
  split <;> rfl

theorem drain_drain (w : World) : w.drain.drain = w.drain := by
  obtain ⟨-, same⟩ | ⟨id, l, -, -, inbox, full, -⟩ := drain_cases w.drain
  · exact same
  · exact absurd (inbox.symm.trans (drain_takes w).drained) full

/-- Whoever is live before is attached after. -/
theorem Takes.mem_endpoints (takes : Takes w v) (live : id ∈ queue w ∨ .connection id ∈ w.endpoints) :
    .connection id ∈ v.endpoints := by
  rw [takes.endpoints, List.mem_append]
  rcases live with queued | attached
  · exact .inr (List.mem_map_of_mem queued)
  · exact .inl attached

theorem Takes.mem_before (takes : Takes w v) (attached : .connection id ∈ v.endpoints) :
    id ∈ queue w ∨ .connection id ∈ w.endpoints := by
  rw [takes.endpoints, List.mem_append] at attached
  rcases attached with before | fresh
  · exact .inr before
  · obtain ⟨_, member, same⟩ := List.mem_map.mp fresh
    obtain rfl := Endpoint.connection.inj same
    exact .inl member

theorem Takes.routed (takes : Takes w v) (tidy : Tidy w) :
    v.listener ≠ none → ∀ endpoint ∈ v.endpoints, ∃ id, endpoint = .connection id := by
  intro opened endpoint member
  rw [takes.listener] at opened
  rw [takes.endpoints, List.mem_append] at member
  rcases member with before | fresh
  · exact tidy.routed opened endpoint before
  · obtain ⟨id, -, rfl⟩ := List.mem_map.mp fresh
    exact ⟨id, rfl⟩

/-- Where the console is live nothing waits in an inbox. -/
theorem Takes.lone (takes : Takes w v) (tidy : Tidy w) :
    .console ∈ v.endpoints → v.endpoints = [.console] := by
  intro member
  rw [takes.endpoints, List.mem_append] at member
  rcases member with before | fresh
  · have unopened : w.listener = none := by
      cases opened : w.listener with
      | none => rfl
      | some listener =>
        obtain ⟨id, same⟩ := tidy.routed (by simp [opened]) _ before
        simp at same
    have empty : queue w = [] := by simp only [queue, unopened, inboxOf, Option.bind_none]
    rw [takes.endpoints, tidy.lone before, empty]
    rfl
  · obtain ⟨id, -, same⟩ := List.mem_map.mp fresh
    simp at same

/-- Where no listener is open nothing is attached, if nothing was. -/
theorem Takes.nobody (takes : Takes w v) (nobody : w.listener = none → w.endpoints = []) :
    v.listener = none → v.endpoints = [] := by
  intro unopened
  rw [takes.listener] at unopened
  have empty : queue w = [] := by
    simp only [queue, unopened, inboxOf, Option.bind_none]
  rw [takes.endpoints, nobody unopened, empty]
  rfl

/-- Who is gone is not attached afterwards. -/
theorem Tidy.unattached_of_gone (tidy : Tidy v) {r : Nat → Connection → Connection → Prop}
    (becomes : Becomes w.traffic v.traffic r)
    (known : w.traffic.connections[id]? = some c) (gone : c.stage = .gone)
    (kept : ∀ d, r id c d → d.stage = c.stage) : .connection id ∉ v.endpoints := by
  intro attached
  obtain ⟨d, known', waiting, -⟩ := tidy.pending (.inr attached)
  obtain ⟨d', known'', related⟩ := becomes.known id c known
  obtain rfl := Option.some.inj (known'.symm.trans known'')
  have still := (kept d related).trans gone
  simp [waiting] at still

/-- The connections attached after the inbox was taken over are those that were live before. -/
theorem Takes.nodup (takes : Takes w v) (tidy : Tidy w) :
    (v.endpoints.filterMap connection?).Nodup := by
  rw [takes.endpoints, List.filterMap_append, filterMap_connection]
  exact List.perm_append_comm.nodup tidy.nodup

/-! ## Clients -/

theorem connect_unopened (unopened : w.listener = none) (body : List UInt8) :
    w.connect body = .ok w := by
  simp only [World.connect, unopened]

/-- A client that connects while a listener is open waits in its inbox. -/
theorem Tidy.connect (tidy : Tidy w) (opened : w.listener = some listener) (body : List UInt8) :
    ∃ v, w.connect body = .ok v ∧ Tidy v ∧ v.listener = w.listener ∧ v.endpoints = w.endpoints ∧
      queue v = queue w ++ [w.traffic.connections.size] ∧
      ∀ id : Nat, v.traffic.connections[id]? =
        if w.traffic.connections.size = id then some { listener, input := body, stage := .waiting }
        else w.traffic.connections[id]? := by
  obtain ⟨p, a, rest, counts⟩ := tidy.counts
  obtain ⟨l, found, isOpen⟩ := tidy.opened opened
  obtain ⟨u, ran, listeners, connections⟩ := settle_arrived tidy.settled counts found isOpen body
  obtain ⟨log, reachable⟩ := tidy.reachable
  have connected : w.connect body = .ok { w with traffic := u } := by
    simp only [World.connect, opened, ran, bind, Except.bind]
    rfl
  obtain ⟨v, log', connected', reached⟩ := reachable.connect body
  rw [World.mute_connect, connected] at connected'
  obtain rfl := Except.ok.inj connected'
  refine ⟨_, connected, ⟨⟨log', reached⟩, ?_, tidy.routed, tidy.lone⟩, rfl, rfl, ?_, connections⟩
  · intro id c known
    rw [connections id] at known
    split at known
    · obtain rfl := Option.some.inj known
      exact .inl ⟨rfl, rfl⟩
    · exact tidy.settled id c known
  · have now : u.listeners[listener]? = some (enlisted l w.traffic.connections.size) := by
      rw [listeners]
      exact (getElem?_setListener found _ listener).trans (if_pos rfl)
    simp only [queue, inboxOf, opened, Option.bind_some, now, found, enlisted]

/-! ## Waiting for a connection -/

theorem awaitRounds_attached (attached : w.drain.endpoints ≠ []) (rounds : Nat) :
    World.awaitRounds (rounds + 1) w = .ok (w.drain, true) := by
  simp [World.awaitRounds, attached, pure, Except.pure]

theorem awaitRounds_armed (nobody : w.drain.endpoints = [])
    (armed : w.traffic.waiters.isReleased Waiters.connection = .ok false) (rounds : Nat) :
    World.awaitRounds (rounds + 1) w = .ok (w.drain, false) := by
  have still : w.drain.traffic.waiters.isReleased Waiters.connection = .ok false := by
    rw [drain_waiters]
    exact armed
  simp [World.awaitRounds, nobody, still, pure, Except.pure, bind, Except.bind]

theorem awaitRounds_released (nobody : w.drain.endpoints = [])
    (released : w.traffic.waiters.isReleased Waiters.connection = .ok true)
    (rearmed : w.drain.traffic.rearm = .ok t) (rounds : Nat) :
    World.awaitRounds (rounds + 1) w =
      World.awaitRounds rounds { w.drain with traffic := t } := by
  have still : w.drain.traffic.waiters.isReleased Waiters.connection = .ok true := by
    rw [drain_waiters]
    exact released
  simp [World.awaitRounds, nobody, still, drain_drain, rearmed, bind, Except.bind]

theorem settle_of_settled (settled : Settled t) : t.settle = .ok t := by
  apply settle_stays settled
  intro id member
  have known : t.connections[id]? = some _ :=
    Array.getElem?_eq_getElem (List.mem_range.mp member)
  exact ⟨_, known, known⟩

theorem Settled.of_same (settled : Settled t) (same : u.connections = t.connections) : Settled u :=
  (Becomes.of_same same).settled settled (by rintro _ _ _ rfl; exact ⟨rfl, rfl⟩)

/-- Taking over an inbox where nobody is attached then is what a byte for nobody does. -/
theorem Tidy.drain (tidy : Tidy w) (nobody : w.drain.endpoints = []) : Tidy w.drain := by
  obtain ⟨log, reachable⟩ := tidy.reachable
  obtain ⟨log', reached⟩ := reachable.broadcast 0
  have same : (w.mute.broadcast 0).1 = w.drain.mute := by
    have nobody : w.drain.mute.endpoints = [] := nobody
    simp only [World.broadcast, World.mute_drain, nobody, World.writeEach]
  rw [same] at reached
  exact ⟨⟨log', reached⟩, tidy.settled.of_same (drain_connections w),
    (drain_takes w).routed tidy, (drain_takes w).lone tidy⟩

/-- Arming the group of awaited connections where nobody is attached is what the end of an empty cycle
does. -/
theorem Tidy.rearm (tidy : Tidy w) (nobody : w.endpoints = []) :
    ∃ waiters, w.traffic.rearm = .ok { w.traffic with waiters } ∧
      waiters.isReleased Waiters.connection = .ok false ∧
      Tidy { w with traffic := { w.traffic with waiters } } := by
  obtain ⟨p, a, rest, counts⟩ := tidy.counts
  have rearmed : ∃ armed, w.traffic.rearm =
      .ok { w.traffic with waiters := .counts p (armed + 1) rest } := by
    cases a with
    | zero =>
      refine ⟨0, ?_⟩
      simp only [Traffic.rearm, counts, Waiters.counts_connection, Waiters.counts_add_connection]
      rfl
    | succ armed =>
      have same : { w.traffic with waiters := .counts p (armed + 1) rest } = w.traffic := by
        rw [← counts]
      refine ⟨armed, ?_⟩
      rw [same]
      simp only [Traffic.rearm, counts, Waiters.counts_connection]
      rfl
  obtain ⟨armed, rearmed⟩ := rearmed
  have settled : Settled { w.traffic with waiters := .counts p (armed + 1) rest } :=
    tidy.settled.of_same rfl
  obtain ⟨log, reachable⟩ := tidy.reachable
  obtain ⟨v, log', cycled, reached⟩ := reachable.finishCycle
  have same : w.finishCycle =
      .ok { w with traffic := { w.traffic with waiters := .counts p (armed + 1) rest } } := by
    rw [finishCycle_eq, rearmed, nobody]
    simp only [List.filterMap_nil, List.foldl_nil, bind, Except.bind, settle_of_settled settled]
    rw [← nobody]
    rfl
  rw [World.mute_finishCycle, same] at cycled
  obtain rfl := Except.ok.inj cycled
  exact ⟨.counts p (armed + 1) rest, rearmed, rfl, ⟨log', reached⟩, settled, tidy.routed, tidy.lone⟩

/-- Waiting for a connection attaches what is in the inbox, and holds where that is nothing. -/
theorem Tidy.awaitConnection (tidy : Tidy w) :
    ∃ v, w.awaitConnection = .ok (v, !v.endpoints.isEmpty) ∧ Tidy v ∧ Takes w v ∧
      v.traffic.connections = w.traffic.connections ∧
      v = { w with traffic := v.traffic, endpoints := v.endpoints } := by
  have takes := drain_takes w
  by_cases nobody : w.drain.endpoints = []
  · have drained := tidy.drain nobody
    obtain ⟨p, a, rest, counts⟩ := tidy.counts
    cases a with
    | succ armed =>
      refine ⟨w.drain, ?_, drained, takes, drain_connections w, drain_elsewhere w⟩
      simp [World.awaitConnection, awaitRounds_armed nobody (by rw [counts]; rfl), nobody]
    | zero =>
      obtain ⟨waiters, rearmed, armed, again⟩ := drained.rearm nobody
      let v : World := { w.drain with traffic := { w.drain.traffic with waiters } }
      have same : v.drain = v := by
        obtain ⟨-, same⟩ | ⟨_, _, opened, found, inbox, full, -⟩ := drain_cases v
        · exact same
        · have empty : queue v = [] := takes.drained
          exact absurd (inbox.symm.trans empty) full
      have elsewhere : v = { w with traffic := v.traffic, endpoints := v.endpoints } :=
        congrArg (fun u : World => { u with traffic := v.traffic }) (drain_elsewhere w)
      refine ⟨v, ?_, again, ⟨takes.listener, takes.endpoints, takes.drained⟩, drain_connections w,
        elsewhere⟩
      have second : World.awaitRounds 1 v = .ok (v, false) := by
        have nobody' : v.drain.endpoints = [] := by rw [same]; exact nobody
        rw [awaitRounds_armed nobody' armed, same]
      rw [World.awaitConnection, awaitRounds_released nobody (by rw [counts]; rfl) rearmed, second]
      simp [v, nobody]
  · obtain ⟨log, reachable⟩ := tidy.reachable
    have ran : w.awaitConnection = .ok (w.drain, true) := awaitRounds_attached nobody 1
    have muted : w.mute.awaitConnection = .ok (w.mute.drain, true) := by
      apply awaitRounds_attached
      rw [World.mute_drain]
      exact nobody
    obtain ⟨v, found, ran', awaits⟩ := reachable.awaitConnection
    obtain ⟨rfl, rfl⟩ := Prod.mk.inj (Except.ok.inj (muted.symm.trans ran'))
    rw [World.mute_drain] at awaits
    refine ⟨w.drain, by simp [ran, nobody], ?_, takes, drain_connections w, drain_elsewhere w⟩
    exact ⟨⟨log, awaits⟩, tidy.settled.of_same (drain_connections w), takes.routed tidy,
      takes.lone tidy⟩

/-! ## Writing and reading -/

/-- A connection with one more byte in its response. -/
def appended (byte : UInt8) (c : Connection) : Connection :=
  { c with output := c.output.push byte }

theorem filterMap_connection_eq {endpoints : List Endpoint}
    (only : ∀ endpoint ∈ endpoints, ∃ id, endpoint = .connection id) :
    (endpoints.filterMap connection?).map .connection = endpoints := by
  induction endpoints with
  | nil => rfl
  | cons endpoint rest ih =>
    obtain ⟨id, rfl⟩ := only endpoint List.mem_cons_self
    have later := ih fun other member => only other (List.mem_cons_of_mem _ member)
    simp only [List.filterMap_cons, connection?, List.map_cons, later]

theorem writeEach_connections (ids : List Nat) (byte : UInt8) (w : World) :
    w.writeEach byte (ids.map .connection) =
      ({ w with traffic := ids.foldl (Traffic.write · · byte) w.traffic }, .ok ()) := by
  induction ids generalizing w with
  | nil => rfl
  | cons id rest ih => exact ih _

/-- A byte goes once to each of the connections that it is written to. -/
theorem getElem?_writes {ids : List Nat} (once : ids.Nodup) (byte : UInt8) (t : Traffic) :
    (ids.foldl (Traffic.write · · byte) t).listeners = t.listeners ∧
      ∀ id : Nat, (ids.foldl (Traffic.write · · byte) t).connections[id]? =
        t.connections[id]?.map fun c => if id ∈ ids then appended byte c else c := by
  induction ids generalizing t with
  | nil => exact ⟨rfl, fun id => by cases known : t.connections[id]? <;> simp [known]⟩
  | cons first rest ih =>
    obtain ⟨absent, once⟩ := List.nodup_cons.mp once
    obtain ⟨listeners, connections⟩ := ih once (t.write first byte)
    refine ⟨listeners, fun id => ?_⟩
    rw [List.foldl_cons, connections id, Traffic.write, getElem?_update]
    cases t.connections[id]? with
    | none => simp
    | some c =>
      by_cases same : first = id
      · subst same
        simp [absent, appended]
      · simp [same, Ne.symm same]

/-- What is written elsewhere than to connections leaves them and the routing. -/
theorem writeEach_elsewhere {endpoints : List Endpoint} (byte : UInt8) (w : World)
    (away : ∀ id, .connection id ∉ endpoints) :
    (w.writeEach byte endpoints).1.traffic = w.traffic ∧
      (w.writeEach byte endpoints).1.listener = w.listener ∧
      (w.writeEach byte endpoints).1.endpoints = w.endpoints := by
  induction endpoints generalizing w with
  | nil => exact ⟨rfl, rfl, rfl⟩
  | cons endpoint rest ih =>
    unfold World.writeEach
    cases written : w.writeByte byte endpoint with
    | error error => exact ⟨rfl, rfl, rfl⟩
    | ok v =>
      have beyond : connection? endpoint = none := by
        cases endpoint with
        | connection id => exact absurd List.mem_cons_self (away id)
        | console | file => rfl
      have same := congrArg System.world (writeByte_elsewhere (s := ⟨w, .idle, []⟩) beyond written)
      obtain ⟨traffic, listener, endpoints⟩ := ih v fun id member =>
        away id (List.mem_cons_of_mem _ member)
      refine ⟨traffic.trans ?_, listener.trans ?_, endpoints.trans ?_⟩
      · exact (congrArg World.traffic same).symm
      · exact (congrArg World.listener same).symm
      · exact (congrArg World.endpoints same).symm

/-- While a listener is open, a byte goes to the connections that are live, and nowhere else. -/
theorem Tidy.broadcast_eq (tidy : Tidy w) (opened : w.listener ≠ none) (byte : UInt8) :
    w.broadcast byte = ({ w.drain with
      traffic := (w.drain.endpoints.filterMap connection?).foldl (Traffic.write · · byte)
        w.drain.traffic }, .ok ()) := by
  have takes := drain_takes w
  have routed : w.drain.listener ≠ none := by rwa [takes.listener]
  have each := writeEach_connections (w.drain.endpoints.filterMap connection?) byte w.drain
  rw [filterMap_connection_eq (takes.routed tidy routed)] at each
  exact each

/-- Nothing that happens to the connections while none is attached is a byte's. -/
theorem Tidy.broadcast_unopened (tidy : Tidy w) (unopened : w.listener = none) (byte : UInt8) :
    (w.broadcast byte).1.traffic = w.drain.traffic ∧
      (w.broadcast byte).1.listener = w.drain.listener ∧
      (w.broadcast byte).1.endpoints = w.drain.endpoints := by
  apply writeEach_elsewhere
  intro id attached
  have queued : id ∈ queue w :=
    ((drain_takes w).mem_before attached).resolve_right (tidy.unattached unopened)
  simp [queue, unopened, inboxOf] at queued

/-- A byte goes to every connection that is live, and to no other. -/
theorem Tidy.broadcast (tidy : Tidy w) (byte : UInt8) :
    Tidy (w.broadcast byte).1 ∧ Takes w (w.broadcast byte).1 ∧
      Becomes w.traffic (w.broadcast byte).1.traffic fun id c d =>
        (.connection id ∈ (w.broadcast byte).1.endpoints → d = appended byte c) ∧
        (.connection id ∉ (w.broadcast byte).1.endpoints → d = c) := by
  have takes := drain_takes w
  obtain ⟨log, reachable⟩ := tidy.reachable
  have reached := reachable.broadcast byte
  rw [World.mute_broadcast (takes.lone tidy)] at reached
  have effects : (w.broadcast byte).1.listener = w.drain.listener ∧
      (w.broadcast byte).1.endpoints = w.drain.endpoints ∧
      (w.broadcast byte).1.traffic.listeners = w.drain.traffic.listeners ∧
      ∀ id : Nat, (w.broadcast byte).1.traffic.connections[id]? = w.traffic.connections[id]?.map
        fun c => if id ∈ w.drain.endpoints.filterMap connection? then appended byte c else c := by
    by_cases opened : w.listener = none
    · obtain ⟨traffic, listener, endpoints⟩ := tidy.broadcast_unopened opened byte
      refine ⟨listener, endpoints, by rw [traffic], ?_⟩
      intro id
      have absent : id ∉ w.drain.endpoints.filterMap connection? := by
        intro attached
        have attached := (mem_attached log).mp attached
        have queued : id ∈ queue w :=
          (takes.mem_before attached).resolve_right (tidy.unattached opened)
        simp [queue, opened, inboxOf] at queued
      simp only [traffic, drain_connections, absent, ↓reduceIte, Option.map_id']
    · rw [tidy.broadcast_eq opened byte]
      obtain ⟨listeners, connections⟩ := getElem?_writes (takes.nodup tidy) byte w.drain.traffic
      refine ⟨rfl, rfl, listeners, ?_⟩
      intro id
      rw [connections id, drain_connections]
  obtain ⟨listener, endpoints, listeners, connections⟩ := effects
  have becomes := Becomes.of_map connections
  have takes' : Takes w (w.broadcast byte).1 := by
    refine ⟨listener.trans takes.listener, endpoints.trans takes.endpoints, ?_⟩
    have empty := takes.drained
    simp only [queue, inboxOf, listeners, listener] at empty ⊢
    exact empty
  refine ⟨⟨reached, ?_, takes'.routed tidy, takes'.lone tidy⟩, takes', becomes.mono ?_⟩
  · apply becomes.settled tidy.settled
    rintro id c d rfl
    split <;> exact ⟨rfl, rfl⟩
  · rintro id c d - rfl
    have attached : id ∈ w.drain.endpoints.filterMap connection? ↔
        .connection id ∈ w.drain.endpoints := mem_attached log
    rw [endpoints]
    exact ⟨fun member => if_pos (attached.mpr member),
      fun absent => if_neg fun member => absent (attached.mp member)⟩

/-- A connection whose request may have been read from, if it is the one that is read from. -/
def ReadFrom (first : Nat → Prop) (id : Nat) (c d : Connection) : Prop :=
  (∃ input, d = { c with input }) ∧ (¬ first id → d = c)

theorem becomes_readFrom (first : Nat → Prop) (same : u.connections = t.connections) :
    Becomes t u (ReadFrom first) :=
  (Becomes.of_same same).mono fun _ c _ _ same => ⟨⟨c.input, same⟩, fun _ => same⟩

theorem traffic_read_effect (t : Traffic) (id : Nat) :
    (t.read id).2.listeners = t.listeners ∧ Becomes t (t.read id).2 (ReadFrom (· = id)) := by
  cases known : t.connections[id]? with
  | none =>
    simp only [Traffic.read, known]
    exact ⟨trivial, becomes_readFrom _ rfl⟩
  | some c =>
    cases input : c.input with
    | nil =>
      simp only [Traffic.read, known, input]
      exact ⟨trivial, becomes_readFrom _ rfl⟩
    | cons byte rest =>
      simp only [Traffic.read, known, input]
      refine ⟨rfl, ?_⟩
      have mapped (other : Nat) :
          (t.update id fun c => { c with input := rest }).connections[other]? =
            t.connections[other]?.map fun c =>
              if id = other then { c with input := rest } else c := by
        rw [getElem?_update]
        split <;> simp
      refine (Becomes.of_map mapped).mono ?_
      rintro other c d - rfl
      by_cases own : id = other
      · exact ⟨⟨rest, if_pos own⟩, fun apart => absurd own.symm apart⟩
      · exact ⟨⟨c.input, if_neg own⟩, fun _ => if_neg own⟩

theorem readLive_effect (w : World) :
    w.readLive.1.listener = w.listener ∧ w.readLive.1.endpoints = w.endpoints ∧
      w.readLive.1.traffic.listeners = w.traffic.listeners ∧
      Becomes w.traffic w.readLive.1.traffic (ReadFrom (.connection · ∈ w.endpoints)) := by
  have console (first : w.endpoints.head? = some .console ∨ w.endpoints.head? = none) :
      w.readLive.1.listener = w.listener ∧ w.readLive.1.endpoints = w.endpoints ∧
        w.readLive.1.traffic = w.traffic := by
    cases read : w.console.input.read with
    | error | ok =>
      rcases first with first | first <;>
        simp [World.readLive, first, World.readConsole, read, Except.map]
  cases first : w.endpoints.head? with
  | none =>
    obtain ⟨listener, endpoints, traffic⟩ := console (.inr first)
    exact ⟨listener, endpoints, by rw [traffic], becomes_readFrom _ (by rw [traffic])⟩
  | some endpoint =>
    cases endpoint with
    | console =>
      obtain ⟨listener, endpoints, traffic⟩ := console (.inl first)
      exact ⟨listener, endpoints, by rw [traffic], becomes_readFrom _ (by rw [traffic])⟩
    | file handle =>
      simp only [World.readLive, first]
      exact ⟨trivial, trivial, trivial, becomes_readFrom _ rfl⟩
    | connection id =>
      simp only [World.readLive, first]
      obtain ⟨listeners, becomes⟩ := traffic_read_effect w.traffic id
      refine ⟨trivial, trivial, listeners, becomes.mono ?_⟩
      rintro other c d - ⟨read, stays⟩
      refine ⟨read, fun unattached => stays ?_⟩
      rintro rfl
      exact unattached (List.mem_of_mem_head? first)

/-- Reading takes at most a byte of a request. -/
theorem Tidy.read (tidy : Tidy w) :
    Tidy w.read.1 ∧ Takes w w.read.1 ∧
      Becomes w.traffic w.read.1.traffic (ReadFrom (.connection · ∈ w.read.1.endpoints)) := by
  have takes := drain_takes w
  obtain ⟨log, reachable⟩ := tidy.reachable
  obtain ⟨listener, endpoints, listeners, becomes⟩ := readLive_effect w.drain
  have becomes : Becomes w.traffic w.read.1.traffic
      (ReadFrom (.connection · ∈ w.read.1.endpoints)) := by
    have endpoints : w.read.1.endpoints = w.drain.endpoints := endpoints
    rw [endpoints]
    refine ⟨becomes.size.trans (by rw [drain_connections]), ?_⟩
    intro id c known
    exact becomes.known id c (by rw [drain_connections]; exact known)
  have takes' : Takes w w.read.1 := by
    refine ⟨listener.trans takes.listener, endpoints.trans takes.endpoints, ?_⟩
    have empty := takes.drained
    unfold World.read
    simp only [queue, inboxOf, listeners, listener] at empty ⊢
    exact empty
  have reached := reachable.read
  rw [World.mute_read] at reached
  refine ⟨⟨⟨log, reached⟩, ?_, takes'.routed tidy, takes'.lone tidy⟩, takes', becomes⟩
  apply becomes.settled tidy.settled
  rintro id c d ⟨⟨input, rfl⟩, -⟩
  exact ⟨rfl, rfl⟩

/-! ## The end of a cycle, and of a listener -/

/-- Whoever waits is answered with what was written to it, if it is one of those. -/
def Answers (p : Nat → Prop) (id : Nat) (c d : Connection) : Prop :=
  (p id → c.stage = .waiting → ∃ type, d = answered type c) ∧ (¬ p id ∨ c.stage = .gone → d = c)

/-- The end of a cycle answers the connections that are attached. -/
theorem Tidy.finishCycle (tidy : Tidy w) :
    ∃ v, w.finishCycle = .ok v ∧ Tidy v ∧ v.listener = w.listener ∧ v.endpoints = [] ∧
      queue v = queue w ∧ v = { w with traffic := v.traffic, endpoints := v.endpoints } ∧
      Becomes w.traffic v.traffic (Answers (.connection · ∈ w.endpoints)) := by
  obtain ⟨log, reachable⟩ := tidy.reachable
  obtain ⟨v', log', cycled', reached⟩ := reachable.finishCycle
  rw [World.mute_finishCycle] at cycled'
  obtain ⟨v, cycled⟩ : ∃ v, w.finishCycle = .ok v := by
    cases cycled : w.finishCycle with
    | error fault => simp [cycled, Except.map] at cycled'
    | ok v => exact ⟨v, rfl⟩
  rw [cycled] at cycled'
  obtain rfl := Except.ok.inj cycled'
  refine ⟨v, cycled, ?_⟩
  rw [finishCycle_eq] at cycled
  cases rearmed : w.traffic.rearm with
  | error fault => simp [rearmed, bind, Except.bind] at cycled
  | ok t =>
    have kept : t.connections = w.traffic.connections ∧ t.listeners = w.traffic.listeners := by
      obtain ⟨p, a, rest, counts⟩ := tidy.counts
      cases a <;>
        simp only [Traffic.rearm, counts, Waiters.counts_connection,
          Waiters.counts_add_connection, bind, Except.bind] at rearmed
      · obtain rfl := Except.ok.inj rearmed
        exact ⟨rfl, rfl⟩
      · obtain rfl := Except.ok.inj rearmed
        exact ⟨rfl, rfl⟩
    cases ran : ((w.endpoints.filterMap connection?).foldl Traffic.finish t).settle with
    | error fault => simp [rearmed, ran, bind, Except.bind] at cycled
    | ok u =>
      simp only [rearmed, ran, bind, Except.bind] at cycled
      obtain rfl := Except.ok.inj cycled
      have hosted (id : Nat) (c : Connection) (known : t.connections[id]? = some c)
          (waiting : c.stage = .waiting) : t.listeners[c.listener]? ≠ none := by
        rw [kept.2]
        exact tidy.hosted (kept.1 ▸ known) (verdict_waiting waiting)
      obtain ⟨settled, listeners, becomes⟩ :=
        Becomes.of_finishes (tidy.settled.of_same kept.1) hosted ran
      refine ⟨⟨⟨log', reached⟩, settled, by simp, by simp⟩, rfl, rfl, ?_, rfl, ?_⟩
      · simp only [queue, inboxOf, listeners, kept.2]
      · refine ⟨by rw [becomes.size, kept.1], ?_⟩
        intro id c known
        obtain ⟨d, known', ends, stays⟩ := becomes.known id c (by rw [kept.1]; exact known)
        have attached : id ∈ w.endpoints.filterMap connection? ↔
            .connection id ∈ w.endpoints := mem_attached log
        rw [attached] at ends stays
        exact ⟨d, known', ends, stays⟩

theorem traffic_closeListener (found : t.listeners[listener]? = some l) (opened : l.closed = false)
    (closed : t.closeListener listener = .ok u) :
    ∃ v, (l.issued.foldl Traffic.finish (setListener t listener (sealed l))).settle = .ok v ∧
      u.connections = v.connections ∧ u.listeners = v.listeners := by
  have shut : t.shut listener = (setListener t listener (sealed l), l.issued) := by
    simp only [Traffic.shut, found, setListener, sealed]
  simp only [Traffic.closeListener, found, opened, Bool.false_eq_true, ↓reduceIte, shut] at closed
  cases ran : (l.issued.foldl Traffic.finish (setListener t listener (sealed l))).settle with
  | error fault => simp [ran, bind, Except.bind] at closed
  | ok v =>
    cases disarmed : v.waiters.doneIfPending Waiters.connection with
    | error fault => simp [ran, disarmed, bind, Except.bind] at closed
    | ok pair =>
      cases done : pair.2.done Waiters.program with
      | error fault => simp [ran, disarmed, done, bind, Except.bind] at closed
      | ok waiters =>
        simp only [ran, disarmed, done, bind, Except.bind] at closed
        obtain rfl := Except.ok.inj closed
        exact ⟨v, rfl, rfl, rfl⟩

/-- Where no listener is open nobody waits. -/
theorem Tidy.concluded (tidy : Tidy w) (unopened : w.listener = none)
    (same : u.connections = w.traffic.connections) :
    Becomes w.traffic u (Answers fun _ => True) := by
  refine (Becomes.of_same same).mono ?_
  intro id c d known same
  refine ⟨fun _ waiting => ?_, fun _ => same⟩
  obtain ⟨_, _, opened, -⟩ := tidy.issued known waiting
  simp [unopened] at opened

/-- The close of a listener answers everybody. -/
theorem Tidy.closeListener (tidy : Tidy w) :
    w.closeListener.2 = .ok () ∧ w.closeListener.1.listener = none ∧
      w.closeListener.1.endpoints = [] ∧ Settled w.closeListener.1.traffic ∧
      w.closeListener.1.traffic.listeners.size = w.traffic.listeners.size ∧
      Becomes w.traffic w.closeListener.1.traffic (Answers fun _ => True) := by
  cases opened : w.listener with
  | none =>
    have left : w.closeListener = ({ w with listener := none, endpoints := [] }, .ok ()) := by
      simp only [World.closeListener, opened]
    rw [left]
    exact ⟨rfl, rfl, rfl, tidy.settled, rfl, tidy.concluded opened rfl⟩
  | some listener =>
    obtain ⟨l, found, isOpen⟩ := tidy.opened opened
    obtain ⟨log, reachable⟩ := tidy.reachable
    have closed : w.mute.closeListener.2 = .ok () := reachable.closeListener.1
    rw [World.mute_closeListener] at closed
    have closed : w.closeListener.2 = .ok () := closed
    cases shut : w.traffic.closeListener listener with
    | error fault => simp [World.closeListener, opened, shut] at closed
    | ok u =>
      have left : w.closeListener =
          ({ w with listener := none, endpoints := [], traffic := u }, .ok ()) := by
        simp only [World.closeListener, opened, shut]
      obtain ⟨v, ran, same, listeners⟩ := traffic_closeListener found isOpen shut
      have hosted (id : Nat) (c : Connection) (known : w.traffic.connections[id]? = some c)
          (waiting : c.stage = .waiting) :
          (setListener w.traffic listener (sealed l)).listeners[c.listener]? ≠ none := by
        rw [getElem?_setListener found]
        split
        · simp
        · exact tidy.hosted known (verdict_waiting waiting)
      obtain ⟨settled, kept, becomes⟩ := Becomes.of_finishes
        (t := setListener w.traffic listener (sealed l)) (tidy.settled.of_same rfl) hosted ran
      rw [left]
      refine ⟨rfl, rfl, rfl, settled.of_same same, ?_, by rw [same]; exact becomes.size, ?_⟩
      · rw [listeners, kept]
        exact Array.size_setIfInBounds
      intro id c known
      obtain ⟨d, known', ends, stays⟩ := becomes.known id c known
      refine ⟨d, by rw [same]; exact known', ?_⟩
      by_cases waiting : c.stage = .waiting
      · obtain ⟨other, l', opened', found', member⟩ := tidy.issued known waiting
        obtain rfl := Option.some.inj (opened.symm.trans opened')
        obtain rfl := Option.some.inj (found.symm.trans found')
        exact ⟨fun _ => ends member, by simp [waiting]⟩
      · obtain ⟨waits, -⟩ | ⟨gone, -⟩ := tidy.settled id c known
        · exact absurd waits waiting
        · exact ⟨fun _ waits => absurd waits waiting, fun _ => stays (.inr gone)⟩

theorem openListener_effect {type : Option String} {pair : Traffic × Nat}
    (opened : t.openListener type = .ok pair) :
    pair.1.connections = t.connections ∧ pair.2 = t.listeners.size := by
  unfold Traffic.openListener at opened
  cases held : t.waiters.add Waiters.program 1 with
  | error fault => simp [held, bind, Except.bind] at opened
  | ok waiters =>
    cases count : waiters.count Waiters.connection with
    | error fault => simp [held, count, bind, Except.bind] at opened
    | ok armed =>
      by_cases unarmed : armed = 0
      · cases added : waiters.add Waiters.connection 1 with
        | error fault => simp [held, count, unarmed, added, bind, Except.bind] at opened
        | ok waiters =>
          simp only [held, count, unarmed, added, bind, Except.bind, ↓reduceIte] at opened
          obtain rfl := Except.ok.inj opened
          exact ⟨rfl, rfl⟩
      · simp only [held, count, unarmed, bind, Except.bind, ↓reduceIte] at opened
        obtain rfl := Except.ok.inj opened
        exact ⟨rfl, rfl⟩

/-- Making a target active leaves the connections, and attaches none. -/
inductive Enters (w v : World) : Prop where
  | refused (same : v = w)
  | moved (traffic : v.traffic = w.traffic) (listener : v.listener = w.listener)
      (target : v.target ≠ .http) (alone : ∀ first rest, v.endpoints = first :: rest → rest = [])
  | opened (connections : v.traffic.connections = w.traffic.connections)
      (listener : v.listener = some w.traffic.listeners.size) (endpoints : v.endpoints = [])

theorem enter_cases (w : World) (name : String) : Enters w (w.enter name).1 := by
  unfold World.enter
  cases Target.ofName? name with
  | none => exact .refused rfl
  | some target =>
    cases target with
    | std | tcp =>
      refine .moved rfl rfl ?_ ?_
      · exact Target.noConfusion
      · simp [World.setConsole, World.setTcp]
    | file =>
      unfold World.openFile
      dsimp only
      split
      · exact .moved rfl rfl (by simp) (by simp)
      · exact .refused rfl
      · exact .refused rfl
    | http =>
      unfold World.openNetwork
      dsimp only
      split
      · exact .refused rfl
      · split
        · exact .refused rfl
        · split
          next opened =>
            obtain ⟨connections, newest⟩ := openListener_effect opened
            exact .opened connections (congrArg some newest) rfl
          next => exact .refused rfl

theorem Enters.connections (enters : Enters w v) :
    v.traffic.connections = w.traffic.connections := by
  cases enters with
  | refused same => rw [same]
  | moved traffic => rw [traffic]
  | opened connections => exact connections

/-- A listener that was not open before is the newest. -/
theorem Enters.newest (enters : Enters w v) (unopened : w.listener = none)
    (opened : v.listener = some listener) :
    listener = w.traffic.listeners.size ∧ v.endpoints = [] := by
  cases enters with
  | refused same => simp [same, unopened] at opened
  | moved _ kept => simp [kept, unopened] at opened
  | opened _ newest endpoints => exact ⟨Option.some.inj (opened.symm.trans newest), endpoints⟩

theorem Enters.lone (enters : Enters w v)
    (lone : .console ∈ w.endpoints → w.endpoints = [.console]) :
    .console ∈ v.endpoints → v.endpoints = [.console] := by
  cases enters with
  | refused same => rwa [same]
  | moved _ _ _ alone =>
    intro member
    cases endpoints : v.endpoints with
    | nil => simp [endpoints] at member
    | cons first rest =>
      obtain rfl := alone first rest endpoints
      rw [endpoints, List.mem_singleton] at member
      rw [← member]
  | opened _ _ endpoints => simp [endpoints]

/-- A switch answers everybody, whether or not it comes to its target. -/
theorem Tidy.switch (tidy : Tidy w) (name : String) :
    Tidy (w.switch name).1 ∧
      (∀ listener, (w.switch name).1.listener = some listener →
        listener = w.traffic.listeners.size) ∧
      ((w.switch name).1.target = .http → (w.switch name).1.endpoints = []) ∧
      Becomes w.traffic (w.switch name).1.traffic (Answers fun _ => True) := by
  obtain ⟨log, reachable⟩ := tidy.reachable
  obtain ⟨-, log', reached⟩ := reachable.switch name
  rw [World.mute_switch] at reached
  by_cases network : w.target = .http
  · obtain ⟨closed, unopened, endpoints, settled, size, becomes⟩ := tidy.closeListener
    have entered : w.switch name = w.closeListener.1.enter name := by
      simp only [World.switch, network, ↓reduceIte, closed]
    rw [entered] at reached ⊢
    have enters := enter_cases w.closeListener.1 name
    refine ⟨⟨⟨log', reached⟩, settled.of_same enters.connections, ?_, ?_⟩, ?_, ?_, ?_⟩
    · intro opened
      obtain ⟨listener, opened⟩ := Option.ne_none_iff_exists'.mp opened
      simp [(enters.newest unopened opened).2]
    · exact enters.lone (by simp [endpoints])
    · intro listener opened
      exact (enters.newest unopened opened).1.trans size
    · intro _
      cases enters with
      | refused same => rw [same, endpoints]
      | moved _ _ away => contradiction
      | opened _ _ unattached => exact unattached
    · refine ⟨by rw [enters.connections]; exact becomes.size, ?_⟩
      intro id c known
      rw [enters.connections]
      exact becomes.known id c known
  · have unopened : w.listener = none := reachable.tallied.routed.unopened network
    have entered : w.switch name = w.enter name := by
      simp only [World.switch, network, ↓reduceIte]
    rw [entered] at reached ⊢
    have enters := enter_cases w name
    refine ⟨⟨⟨log', reached⟩, tidy.settled.of_same enters.connections, ?_, enters.lone tidy.lone⟩,
      ?_, ?_, tidy.concluded unopened enters.connections⟩
    · intro opened
      obtain ⟨listener, opened⟩ := Option.ne_none_iff_exists'.mp opened
      simp [(enters.newest unopened opened).2]
    · intro listener opened
      exact (enters.newest unopened opened).1
    · intro now
      cases enters with
      | refused same => exact absurd (same ▸ now) network
      | moved _ _ away => exact absurd now away
      | opened _ _ unattached => exact unattached

/-- So does the close of a world. -/
theorem Tidy.close (tidy : Tidy w) :
    w.close.2 = .ok () ∧ Tidy w.close.1 ∧ w.close.1.listener = none ∧ w.close.1.endpoints = [] ∧
      Becomes w.traffic w.close.1.traffic (Answers fun _ => True) := by
  obtain ⟨log, reachable⟩ := tidy.reachable
  obtain ⟨result, log', reached⟩ := reachable.close
  rw [World.mute_close] at result reached
  obtain ⟨closed, unopened, endpoints, settled, -, becomes⟩ := tidy.closeListener
  have same : w.close.1 = { w.closeListener.1 with
      files := w.closeListener.1.opened.foldl Host.Files.close w.closeListener.1.files
      opened := [] } := by
    simp only [World.close, closed]
  rw [same] at reached ⊢
  exact ⟨result, ⟨⟨log', reached⟩, settled, absurd unopened, by simp [endpoints]⟩, unopened,
    endpoints, becomes⟩

end TapeLang.Delivery

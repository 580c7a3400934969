import TapeLang.Proofs.Interleaving

/-!
What one step of a handler or of the interpreter can do. The three groups are at three counts
(`Waiters.counts`), and each operation on a group is a change of its count. `handle_cases` and
`interpret_cases` list the steps, with the state each of them leads to, and say at the same time that
no step misuses a group as long as its count allows what the step takes away.
-/
namespace TapeLang

namespace Waiters

/-- The groups of a program and its listener at three counts. -/
def counts (held armed unanswered : Nat) : Waiters :=
  ⟨[⟨program, held⟩, ⟨connection, armed⟩, ⟨write, unanswered⟩]⟩

variable {p a w : Nat}

theorem counts_add_program : (counts p a w).add program 1 = .ok (counts (p + 1) a w) := rfl

theorem counts_add_connection : (counts p a w).add connection 1 = .ok (counts p (a + 1) w) := rfl

theorem counts_add_write : (counts p a w).add write 1 = .ok (counts p a (w + 1)) := rfl

theorem counts_done_program : (counts (p + 1) a w).done program = .ok (counts p a w) := by
  have enough : ¬ ((p + 1 : Nat) : Int) + -1 < 0 := by omega
  have left : (((p + 1 : Nat) : Int) + -1).toNat = p := by omega
  show (do return (counts (p + 1) a w).set (← (⟨program, p + 1⟩ : WaitGroup).add (-1))) = _
  rw [WaitGroup.add, if_neg enough, left]
  rfl

theorem counts_done_write : (counts p a (w + 1)).done write = .ok (counts p a w) := by
  have enough : ¬ ((w + 1 : Nat) : Int) + -1 < 0 := by omega
  have left : (((w + 1 : Nat) : Int) + -1).toNat = w := by omega
  show (do return (counts p a (w + 1)).set (← (⟨write, w + 1⟩ : WaitGroup).add (-1))) = _
  rw [WaitGroup.add, if_neg enough, left]
  rfl

theorem counts_doneIfPending :
    (counts p a w).doneIfPending connection = .ok (decide (0 < a), counts p (a - 1) w) := by
  cases a <;> rfl

theorem counts_connection : (counts p a w).count connection = .ok a := rfl

theorem counts_isReleased_program : (counts p a w).isReleased program = .ok (p == 0) := rfl

theorem counts_isReleased_connection : (counts p a w).isReleased connection = .ok (a == 0) := rfl

theorem counts_isReleased_write : (counts p a w).isReleased write = .ok (w == 0) := rfl

theorem counts_inj (same : counts p a w = counts p' a' w') : p = p' ∧ a = a' ∧ w = w' := by
  simp only [counts, Waiters.mk.injEq, List.cons.injEq, WaitGroup.mk.injEq, true_and, and_true] at same
  exact same

end Waiters

namespace Interleaving

open Http (Connection Listener Reply Stage Traffic)

/-! ## What a step can do -/

/-- Replaces a listener. -/
def setListener (t : Traffic) (listener : Nat) (l : Listener) : Traffic :=
  { t with listeners := t.listeners.setIfInBounds listener l }

/-- A listener with one more connection, waiting in its inbox and to be finished. -/
def enlisted (l : Listener) (id : Nat) : Listener :=
  { l with issued := l.issued ++ [id], inbox := l.inbox ++ [id] }

/-- A listener closed to new connections, with none left to be finished. -/
def sealed (l : Listener) : Listener := { l with closed := true, issued := [] }

/-- What the next step of a handler can do to the shared state at three counts, and what is recorded
of it. -/
inductive Handles (t : Traffic) (id : Nat) (c : Connection) (p a w : Nat) :
    Traffic → List Event → Prop where
  | stay (stage : c.stage = .gone ∨ (c.stage = .waiting ∧ c.finished = false) ∨
      (c.stage = .answering ∧ t.listeners[c.listener]? = none)) : Handles t id c p a w t []
  | count (stage : c.stage = .counting) :
      Handles t id c p a w
        ({ t with waiters := .counts p a (w + 1) }.setStage id .registering) []
  | reject (stage : c.stage = .registering)
      (shut : ∀ l, t.listeners[c.listener]? = some l → l.closed = true) :
      Handles t id c p a w (t.setStage id .refusing) [.rejected id]
  | register (stage : c.stage = .registering) (found : t.listeners[c.listener]? = some l)
      (opened : l.closed = false) :
      Handles t id c p a w ((setListener t c.listener (enlisted l id)).setStage id .releasing) [.registered id]
  | release (stage : c.stage = .releasing) :
      Handles t id c p a w ({ t with waiters := .counts p (a - 1) w }.setStage id .waiting) []
  | proceed (stage : c.stage = .waiting) (finished : c.finished = true) :
      Handles t id c p a w (t.setStage id .answering) []
  | answer (stage : c.stage = .answering) (found : t.listeners[c.listener]? = some l) :
      Handles t id c p a w
        (t.update id fun c => { c with reply := some (Traffic.response l c), stage := .leaving })
        [.replied id (Traffic.response l c)]
  | refuse (stage : c.stage = .refusing) :
      Handles t id c p a w
        (t.update id fun c =>
          { c with reply := some (.refused 503 "target closed"), stage := .leaving })
        [.replied id (.refused 503 "target closed")]
  | leave (stage : c.stage = .leaving) (counted : w = left + 1) :
      Handles t id c p a w ({ t with waiters := .counts p a left }.setStage id .gone) []

/-- The system in another world that has the same traffic and routing. -/
def System.elsewhere (s : System) (v : World) : System :=
  { s with world := { v with
      traffic := s.world.traffic, target := s.world.target
      endpoints := s.world.endpoints, listener := s.world.listener } }

/-- The steps that only decide what comes next, at a count of armed and one of unanswered
connections. -/
inductive Moves (s : System) (a w : Nat) : Control → Prop where
  | stay (blocked : s.control = .idle ∨ (s.control = .waiting ∧ 0 < a) ∨
      (∃ id purpose, s.control = .settling id purpose) ∨ s.control = .ending) :
      Moves s a w s.control
  | found (control : s.control = .testing again) (some : s.world.endpoints ≠ []) : Moves s a w .idle
  | again (control : s.control = .testing true) : Moves s a w (.counting .await)
  | wait (control : s.control = .testing false) : Moves s a w .waiting
  | woken (control : s.control = .waiting) : Moves s a w (.draining [] (.await true))
  | unarmed (control : s.control = .counting next) (zero : a = 0) : Moves s a w (.arming next)
  | armed (control : s.control = .counting next) : Moves s a w next.control
  | written (control : s.control = .writing value left) : Moves s a w .idle
  | cycled (control : s.control = .finishing []) : Moves s a w .idle
  | unshut {id : Nat} (control : s.control = .shutting id purpose)
      (shut : ∀ l, s.world.traffic.listeners[id]? = some l → l.closed = true) :
      Moves s a w purpose.control
  | completed {id : Nat} (control : s.control = .completing id [] purpose) : Moves s a w (.settling id purpose)
  | settled {id : Nat} (control : s.control = .settling id purpose) (zero : w = 0) :
      Moves s a w (.disarming id purpose)
  | refused (control : s.control = .entering name) : Moves s a w .idle
  | opening (control : s.control = .entering name) : Moves s a w (.holding type)

/-- What the next step of the interpreter can do at three counts. -/
inductive Interprets (s : System) (p a w : Nat) : System → Prop where
  | move (moves : Moves s a w after) : Interprets s p a w (s.goto after)
  | take {id : Nat} (control : s.control = .draining fresh next) (opened : s.world.listener = some id)
      (found : s.world.traffic.listeners[id]? = some l) (inbox : l.inbox = first :: rest) :
      Interprets s p a w
        ((s.setTraffic (setListener s.world.traffic id { l with inbox := rest })).goto
          (.draining (fresh ++ [first]) next))
  | drained (control : s.control = .draining fresh next) (empty : s.inbox = []) :
      Interprets s p a w
        { s with
          world := { s.world with endpoints := s.world.endpoints ++ fresh.map .connection }
          control := next.control (s.world.endpoints ++ fresh.map .connection) }
  | arm (control : s.control = .arming next) :
      Interprets s p a w ((s.setWaiters (.counts p (a + 1) w)).goto next.control)
  | write {id : Nat} (control : s.control = .writing value (.connection id :: rest)) :
      Interprets s p a w
        (((s.setTraffic (s.world.traffic.write id value)).goto (.writing value rest)).record
          [.wrote id value])
  | writeAway (control : s.control = .writing value (endpoint :: rest)) :
      Interprets s p a w ((s.elsewhere v).goto (.writing value rest))
  | read {id : Nat} (control : s.control = .reading) :
      Interprets s p a w
        ((s.setTraffic (s.world.traffic.update id ({ · with input }))).goto .idle)
  | readAway (control : s.control = .reading) : Interprets s p a w ((s.elsewhere v).goto .idle)
  | finish {id : Nat} (control : s.control = .finishing (id :: left)) :
      Interprets s p a w ((s.finish id).goto (.finishing left))
  | shut {id : Nat} (control : s.control = .shutting id purpose)
      (found : s.world.traffic.listeners[id]? = some l) (opened : l.closed = false) :
      Interprets s p a w
        ((s.setTraffic (setListener s.world.traffic id (sealed l))).goto
          (.completing id l.issued purpose))
  | complete {id : Nat} (control : s.control = .completing id (first :: left) purpose) :
      Interprets s p a w ((s.finish first).goto (.completing id left purpose))
  | disarm {id : Nat} (control : s.control = .disarming id purpose) :
      Interprets s p a w ((s.setWaiters (.counts p (a - 1) w)).goto (.releasing id purpose))
  | release {id : Nat} (control : s.control = .releasing id purpose) (held : p = left + 1) :
      Interprets s p a w
        (((s.setWaiters (.counts left a w)).record [.closed id]).goto purpose.control)
  | enter {v : World} (control : s.control = .entering name)
      (unattached : v.endpoints = s.world.endpoints ∨ v.endpoints.filterMap connection? = []) :
      Interprets s p a w
        { s with
          world := { v with traffic := s.world.traffic, listener := s.world.listener }
          control := .idle }
  | hold (control : s.control = .holding type) :
      Interprets s p a w ((s.setWaiters (.counts (p + 1) a w)).goto (.counting (.listen type)))
  | listen (control : s.control = .listening type) :
      Interprets s p a w
        ((s.setTraffic { s.world.traffic with
          listeners := s.world.traffic.listeners.push { contentType := type } }).goto
            (.attaching s.world.traffic.listeners.size))
  | attach {id : Nat} (control : s.control = .attaching id) : Interprets s p a w (s.attachStep id)
  | ended (control : s.control = .ending) : Interprets s p a w s.endStep

/-- What a step of anybody can do at three counts. -/
inductive Steps (s : System) (p a w : Nat) : Action → System → Prop where
  | arrive : Steps s p a w (.arrive listener body)
      (s.setTraffic (s.world.traffic.arrive listener body))
  | unknown {id : Nat} (unknown : s.world.traffic.connections[id]? = none) :
      Steps s p a w (.handle id) s
  | handle {id : Nat} (known : s.world.traffic.connections[id]? = some c)
      (handles : Handles s.world.traffic id c p a w traffic events) :
      Steps s p a w (.handle id) ((s.setTraffic traffic).record events)
  | interpret (interprets : Interprets s p a w t) : Steps s p a w .interpret t
  | undertake (idle : s.control = .idle) : Steps s p a w (.begin operation) (s.undertake operation)
  | busy : Steps s p a w (.begin operation) s

/-! ## The steps of a handler -/

variable {s : System} {t : Traffic} {id : Nat} {c : Connection} {p a w : Nat}

theorem getElem?_update (t : Traffic) (id : Nat) (f : Connection → Connection) (other : Nat) :
    (t.update id f).connections[other]? =
      if id = other then t.connections[other]?.map f else t.connections[other]? :=
  Array.getElem?_modify

/-- The connection that was changed. -/
theorem getElem?_update_self (known : t.connections[id]? = some c) (f : Connection → Connection) :
    (t.update id f).connections[id]? = some (f c) := by
  rw [getElem?_update, if_pos rfl, known, Option.map_some]

/-- What a connection was before one of them changed. -/
theorem known_before_update {f : Connection → Connection}
    (known : (t.update id f).connections[other]? = some c) :
    ∃ before, t.connections[other]? = some before ∧
      (id = other ∧ c = f before ∨ id ≠ other ∧ c = before) := by
  rw [getElem?_update] at known
  by_cases same : id = other
  · rw [if_pos same] at known
    obtain ⟨before, found, rfl⟩ := Option.map_eq_some_iff.mp known
    exact ⟨before, found, .inl ⟨same, rfl⟩⟩
  · rw [if_neg same] at known
    exact ⟨c, known, .inr ⟨same, rfl⟩⟩

theorem getElem?_arrive (known : t.connections[id]? = some c) (listener : Nat)
    (body : List UInt8) : (t.arrive listener body).connections[id]? = some c := by
  have earlier : id ≠ t.connections.size := by
    rintro rfl
    simp at known
  simpa [Traffic.arrive, Array.getElem?_push, earlier] using known

/-- A connection has been there before another one arrived, or has just arrived. -/
theorem known_before_arrive (known : (t.arrive listener body).connections[id]? = some c) :
    t.connections[id]? = some c ∨ c = { listener, input := body } := by
  simp only [Traffic.arrive, Array.getElem?_push] at known
  by_cases newest : id = t.connections.size
  · rw [if_pos newest] at known
    exact .inr (Option.some.inj known).symm
  · rw [if_neg newest] at known
    exact .inl known

theorem getElem?_setListener (found : t.listeners[listener]? = some l) (l' : Listener) (other : Nat) :
    (setListener t listener l').listeners[other]? =
      if listener = other then some l' else t.listeners[other]? := by
  obtain ⟨within, -⟩ := Array.getElem?_eq_some_iff.mp found
  simp only [setListener, Array.getElem?_setIfInBounds, within, ↓reduceIte]

theorem handle_unknown (unknown : s.world.traffic.connections[id]? = none) : s.handle id = .ok s := by
  simp only [System.handle, Traffic.handle, unknown]
  rfl

/-- A listener that is not there turns connections away as a closed one does. -/
theorem register_cases (known : t.connections[id]? = some c) (stage : c.stage = .registering) :
    Handles t id c p a w (t.register id c.listener)
      (System.happened id (some c) (t.register id c.listener).connections[id]?) := by
  have staged (u : Traffic) (same : u.connections = t.connections) (stage : Stage) :
      (u.setStage id stage).connections[id]? = some { c with stage } :=
    getElem?_update_self (same ▸ known) _
  cases found : t.listeners[c.listener]? with
  | none =>
    simp only [Traffic.register, found, System.happened, staged, stage, ↓reduceIte]
    exact .reject stage (by simp [found])
  | some l =>
    cases closed : l.closed with
    | true =>
      have turned : t.register id c.listener = t.setStage id .refusing := by
        simp only [Traffic.register, found, closed, ↓reduceIte]
      rw [turned]
      simp only [System.happened, staged, stage, ↓reduceIte]
      apply Handles.reject stage
      intro other found'
      obtain rfl := Option.some.inj (found.symm.trans found')
      exact closed
    | false =>
      have taken : t.register id c.listener =
          (setListener t c.listener (enlisted l id)).setStage id .releasing := by
        simp only [Traffic.register, found]
        rw [if_neg (by simp [closed])]
        rfl
      rw [taken]
      simp only [System.happened, staged (setListener t c.listener (enlisted l id)) rfl, stage,
        reduceCtorEq, ↓reduceIte]
      exact .register stage found closed

/-- The next step of a handler takes nothing off a count that is not there. -/
theorem traffic_handle_cases (known : t.connections[id]? = some c)
    (waiters : t.waiters = .counts p a w) (counted : c.stage = .leaving → 0 < w) :
    ∃ u, t.handle id = .ok u ∧
      Handles t id c p a w u (System.happened id (some c) u.connections[id]?) := by
  have staged (u : Traffic) (same : u.connections = t.connections) (stage : Stage) :
      (u.setStage id stage).connections[id]? = some { c with stage } :=
    getElem?_update_self (same ▸ known) _
  cases stage : c.stage with
  | counting =>
    refine ⟨{ t with waiters := .counts p a (w + 1) }.setStage id .registering, ?_, ?_⟩
    · simp only [Traffic.handle, known, stage, waiters, Waiters.counts_add_write]
      rfl
    · simp only [System.happened, staged, stage]
      exact .count stage
  | registering =>
    refine ⟨t.register id c.listener, ?_, register_cases known stage⟩
    simp only [Traffic.handle, known, stage]
  | releasing =>
    refine ⟨{ t with waiters := .counts p (a - 1) w }.setStage id .waiting, ?_, ?_⟩
    · simp only [Traffic.handle, known, stage, waiters, Waiters.counts_doneIfPending]
      rfl
    · simp only [System.happened, staged, stage]
      exact .release stage
  | waiting =>
    cases finished : c.finished with
    | true =>
      refine ⟨t.setStage id .answering, ?_, ?_⟩
      · simp only [Traffic.handle, known, stage, finished, ↓reduceIte]
      · simp only [System.happened, staged, stage]
        exact .proceed stage finished
    | false =>
      refine ⟨t, ?_, ?_⟩
      · simp only [Traffic.handle, known, stage, finished, Bool.false_eq_true, ↓reduceIte]
      · simp only [System.happened, known, stage]
        exact .stay (.inr (.inl ⟨stage, finished⟩))
  | answering =>
    cases found : t.listeners[c.listener]? with
    | none =>
      refine ⟨t, ?_, ?_⟩
      · simp only [Traffic.handle, known, stage, found]
      · simp only [System.happened, known, stage, reduceCtorEq, ↓reduceIte]
        exact .stay (.inr (.inr ⟨stage, found⟩))
    | some l =>
      refine ⟨t.update id fun c =>
        { c with reply := some (Traffic.response l c), stage := .leaving }, ?_, ?_⟩
      · simp only [Traffic.handle, known, stage, found]
      · simp only [System.happened, getElem?_update_self known, stage, ↓reduceIte]
        exact .answer stage found
  | refusing =>
    refine ⟨t.update id fun c =>
      { c with reply := some (.refused 503 "target closed"), stage := .leaving }, ?_, ?_⟩
    · simp only [Traffic.handle, known, stage]
    · simp only [System.happened, getElem?_update_self known, stage, ↓reduceIte]
      exact .refuse stage
  | leaving =>
    obtain ⟨left, rfl⟩ := Nat.exists_eq_succ_of_ne_zero (Nat.ne_of_gt (counted stage))
    refine ⟨{ t with waiters := .counts p a left }.setStage id .gone, ?_, ?_⟩
    · simp only [Traffic.handle, known, stage, waiters, Waiters.counts_done_write]
      rfl
    · simp only [System.happened, staged, stage]
      exact .leave stage rfl
  | gone =>
    refine ⟨t, ?_, ?_⟩
    · simp only [Traffic.handle, known, stage]
    · simp only [System.happened, known, stage]
      exact .stay (.inl stage)

theorem handle_cases (known : s.world.traffic.connections[id]? = some c)
    (waiters : s.world.traffic.waiters = .counts p a w) (counted : c.stage = .leaving → 0 < w) :
    ∃ t events, s.handle id = .ok ((s.setTraffic t).record events) ∧
      Handles s.world.traffic id c p a w t events := by
  obtain ⟨t, handled, handles⟩ := traffic_handle_cases known waiters counted
  refine ⟨t, _, ?_, handles⟩
  simp only [System.handle, handled, known]
  rfl

/-! ## The inbox -/

theorem modify_eq_setIfInBounds {xs : Array α} {i : Nat} {x : α} (found : xs[i]? = some x)
    (f : α → α) : xs.modify i f = xs.setIfInBounds i (f x) := by
  obtain ⟨within, -⟩ := Array.getElem?_eq_some_iff.mp found
  apply Array.ext_getElem?
  intro j
  rw [Array.getElem?_modify, Array.getElem?_setIfInBounds]
  by_cases same : i = j
  · subst same
    rw [found, if_pos rfl, if_pos rfl, if_pos within]
    rfl
  · simp [same]

/-- An inbox that is not empty is that of the open listener. -/
theorem listener_of_inbox (inbox : s.inbox = first :: rest) :
    ∃ id l, s.world.listener = some id ∧ s.world.traffic.listeners[id]? = some l ∧
      l.inbox = first :: rest := by
  simp only [System.inbox, inboxOf] at inbox
  split at inbox
  next l found =>
    obtain ⟨id, opened, found⟩ := Option.bind_eq_some_iff.mp found
    exact ⟨id, l, opened, found, inbox⟩
  next => simp at inbox

theorem drainStep_nil (empty : s.inbox = []) (fresh : List Nat) (next : Drained) :
    s.drainStep fresh next =
      { s with
        world := { s.world with endpoints := s.world.endpoints ++ fresh.map .connection }
        control := next.control (s.world.endpoints ++ fresh.map .connection) } := by
  unfold System.drainStep
  split
  next inbox => simp [empty] at inbox
  next => rfl

theorem drainStep_cons {id : Nat} (opened : s.world.listener = some id)
    (found : s.world.traffic.listeners[id]? = some l) (inbox : l.inbox = first :: rest)
    (fresh : List Nat) (next : Drained) :
    s.drainStep fresh next =
      (s.setTraffic (setListener s.world.traffic id { l with inbox := rest })).goto
        (.draining (fresh ++ [first]) next) := by
  have full : s.inbox = first :: rest := by simp [System.inbox, inboxOf, opened, found, inbox]
  simp only [System.drainStep, opened, full, modify_eq_setIfInBounds found]
  rfl

/-! ## The steps of the interpreter -/

/-- What is written elsewhere than to a connection leaves traffic and routing. -/
theorem writeByte_elsewhere (away : connection? endpoint = none)
    (written : s.world.writeByte value endpoint = .ok world) : s.elsewhere world = { s with world } := by
  cases endpoint with
  | connection id => simp [connection?] at away
  | file handle =>
    obtain rfl := Except.ok.inj written
    rfl
  | console =>
    simp only [World.writeByte, World.writeConsole] at written
    split at written
    · split at written
      next session _ =>
        cases sent : session.writeThrough [value] World.Stream.out.name with
        | error => simp [sent, Except.map] at written
        | ok =>
          rw [sent] at written
          obtain rfl := Except.ok.inj written
          rfl
      next =>
        obtain rfl := Except.ok.inj written
        rfl
    · cases sent : s.world.console.out.write [value] with
      | error => simp [sent, Except.map] at written
      | ok =>
        rw [sent] at written
        obtain rfl := Except.ok.inj written
        rfl

theorem writeStep_cases (control : s.control = .writing value left) :
    Interprets s p a w (s.writeStep value left) := by
  cases left with
  | nil => exact .move (.written control)
  | cons endpoint rest =>
    simp only [System.writeStep]
    cases written : s.world.writeByte value endpoint with
    | error error => exact .move (.written control)
    | ok world =>
      cases endpoint with
      | connection id =>
        obtain rfl := Except.ok.inj written
        exact .write control
      | console | file =>
        have step : Interprets s p a w ((s.elsewhere world).goto (.writing value rest)) :=
          .writeAway control
        rw [writeByte_elsewhere rfl written] at step
        exact step

/-- Reading takes at most a byte of the request of a connection. -/
theorem readStep_cases (control : s.control = .reading) :
    Interprets s p a w { s with world := s.world.readLive.1, control := .idle } := by
  have beyond (world : World) (same : s.elsewhere world = { s with world }) :
      Interprets s p a w { s with world, control := .idle } := by
    have step : Interprets s p a w ((s.elsewhere world).goto .idle) := .readAway control
    rw [same] at step
    exact step
  unfold World.readLive
  split
  · exact beyond _ rfl
  next id _ =>
    simp only [Traffic.read]
    split
    · split
      · exact .read control
      · exact beyond _ rfl
    · exact beyond _ rfl
  all_goals
    unfold World.readConsole
    cases s.world.console.input.read <;> exact beyond _ rfl

theorem shutStep_cases {id : Nat} (control : s.control = .shutting id purpose) :
    Interprets s p a w (s.shutStep id purpose) := by
  unfold System.shutStep
  split
  next l found =>
    split
    next closed =>
      apply Interprets.move (.unshut control _)
      intro other found'
      obtain rfl := Option.some.inj (found.symm.trans found')
      exact closed
    next opened =>
      have shut : (s.world.traffic.shut id).1 = setListener s.world.traffic id (sealed l) := by
        simp only [Traffic.shut, found, setListener, sealed]
      rw [shut]
      exact .shut control found (Bool.not_eq_true _ ▸ opened)
  next missing => exact .move (.unshut control (by simp [missing]))

/-- No connection is attached to a target other than a listener. -/
theorem enterStep_cases (control : s.control = .entering name) :
    Interprets s p a w (s.enterStep name) := by
  have entered (v : World) (traffic : v.traffic = s.world.traffic)
      (listener : v.listener = s.world.listener)
      (unattached : v.endpoints = s.world.endpoints ∨ v.endpoints.filterMap connection? = []) :
      Interprets s p a w { s with world := v, control := .idle } := by
    have step : Interprets s p a w { s with
        world := { v with traffic := s.world.traffic, listener := s.world.listener }
        control := .idle } := .enter control unattached
    rw [← traffic, ← listener] at step
    exact step
  unfold System.enterStep
  split
  · exact entered _ rfl rfl (.inr rfl)
  · unfold World.openFile
    split
    · exact entered _ rfl rfl (.inr rfl)
    all_goals exact entered _ rfl rfl (.inl rfl)
  · exact entered _ rfl rfl (.inr rfl)
  · split
    · split
      · exact .move (.refused control)
      · exact .move (.opening control)
    · exact .move (.refused control)
  · exact .move (.refused control)

/-- The next step of the interpreter takes nothing off a count that is not there. -/
theorem interpret_cases (waiters : s.world.traffic.waiters = .counts p a w)
    (held : ∀ id purpose, s.control = .releasing id purpose → 0 < p) :
    ∃ t, s.interpret = .ok t ∧ Interprets s p a w t := by
  have stay (blocked) : Interprets s p a w s := .move (.stay blocked)
  unfold System.interpret
  dsimp only
  cases control : s.control with
  | idle => exact ⟨_, rfl, stay (.inl control)⟩
  | draining fresh next =>
    refine ⟨_, rfl, ?_⟩
    cases inbox : s.inbox with
    | nil =>
      rw [drainStep_nil inbox]
      exact .drained control inbox
    | cons first rest =>
      obtain ⟨id, l, opened, found, own⟩ := listener_of_inbox inbox
      rw [drainStep_cons opened found own]
      exact .take control opened found own
  | testing again =>
    refine ⟨_, rfl, .move ?_⟩
    cases endpoints : s.world.endpoints with
    | cons endpoint rest => exact .found control (by simp [endpoints])
    | nil =>
      cases again with
      | true => exact .again control
      | false => exact .wait control
  | waiting =>
    simp only [waiters, Waiters.counts_isReleased_connection]
    cases a with
    | zero => exact ⟨_, rfl, .move (.woken control)⟩
    | succ a => exact ⟨_, rfl, stay (.inr (.inl ⟨control, Nat.succ_pos a⟩))⟩
  | counting next =>
    simp only [waiters, Waiters.counts_connection]
    cases a with
    | zero => exact ⟨_, rfl, .move (.unarmed control rfl)⟩
    | succ a => exact ⟨_, rfl, .move (.armed control)⟩
  | arming next =>
    simp only [waiters, Waiters.counts_add_connection]
    exact ⟨_, rfl, .arm control⟩
  | writing value left => exact ⟨_, rfl, writeStep_cases control⟩
  | reading => exact ⟨_, rfl, readStep_cases control⟩
  | finishing left =>
    cases left with
    | nil => exact ⟨_, rfl, .move (.cycled control)⟩
    | cons id left => exact ⟨_, rfl, .finish control⟩
  | shutting id purpose => exact ⟨_, rfl, shutStep_cases control⟩
  | completing id left purpose =>
    cases left with
    | nil => exact ⟨_, rfl, .move (.completed control)⟩
    | cons first left => exact ⟨_, rfl, .complete control⟩
  | settling id purpose =>
    simp only [waiters, Waiters.counts_isReleased_write]
    cases w with
    | zero => exact ⟨_, rfl, .move (.settled control rfl)⟩
    | succ w => exact ⟨_, rfl, stay (.inr (.inr (.inl ⟨id, purpose, control⟩)))⟩
  | disarming id purpose =>
    simp only [waiters, Waiters.counts_doneIfPending]
    exact ⟨_, rfl, .disarm control⟩
  | releasing id purpose =>
    obtain ⟨left, rfl⟩ := Nat.exists_eq_succ_of_ne_zero (Nat.ne_of_gt (held id purpose control))
    simp only [waiters, Waiters.counts_done_program]
    exact ⟨_, rfl, .release control rfl⟩
  | entering name => exact ⟨_, rfl, enterStep_cases control⟩
  | holding type =>
    simp only [waiters, Waiters.counts_add_program]
    exact ⟨_, rfl, .hold control⟩
  | listening type => exact ⟨_, rfl, .listen control⟩
  | attaching id => exact ⟨_, rfl, .attach control⟩
  | ending =>
    simp only [waiters, Waiters.counts_isReleased_program]
    cases p with
    | zero => exact ⟨_, rfl, .ended control⟩
    | succ p => exact ⟨_, rfl, stay (.inr (.inr (.inr control)))⟩

/-- Nobody's step takes anything off a count that is not there. -/
theorem step_cases (waiters : s.world.traffic.waiters = .counts p a w)
    (counted : ∀ (id : Nat) (c : Connection), s.world.traffic.connections[id]? = some c →
      c.stage = .leaving → 0 < w)
    (held : ∀ id purpose, s.control = .releasing id purpose → 0 < p) (action : Action) :
    ∃ t, s.step action = .ok t ∧ Steps s p a w action t := by
  cases action with
  | arrive listener body => exact ⟨_, rfl, .arrive⟩
  | handle id =>
    cases known : s.world.traffic.connections[id]? with
    | none => exact ⟨s, handle_unknown known, .unknown known⟩
    | some c =>
      obtain ⟨traffic, events, handled, handles⟩ := handle_cases known waiters (counted id c known)
      exact ⟨_, handled, .handle known handles⟩
  | interpret =>
    obtain ⟨t, interpreted, interprets⟩ := interpret_cases waiters held
    exact ⟨t, interpreted, .interpret interprets⟩
  | begin operation =>
    refine ⟨_, rfl, ?_⟩
    split
    next idle => exact .undertake idle
    next => exact .busy

end Interleaving
end TapeLang

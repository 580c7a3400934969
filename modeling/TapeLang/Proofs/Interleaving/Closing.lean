import TapeLang.Proofs.Interleaving.Ledger

/-!
What the close of a listener leaves behind. Only one listener is open at a time, and all others are
closed or being closed (`Confined`). The response of each registered connection is complete, or kept
by its open listener, or among those the close is about to complete (`Covered`); so while a close
waits for the unanswered connections, none of them waits for the interpreter. When that wait is over,
every handler that had registered a connection is gone, and stays so (`Retired`).
-/
namespace TapeLang.Interleaving

open Http (Connection Listener Reply Stage Traffic)

/-- A listener that is there and closed to new connections. -/
def IsShut (t : Traffic) (listener : Nat) : Prop := closedAt t listener = some true

/-- The listener that is closed to new connections, and whose close has not returned. -/
def Control.closing? : Control → Option Nat
  | .completing listener .. | .settling listener _ | .disarming listener _ | .releasing listener _ =>
    some listener
  | _ => none

structure Confined (s : System) : Prop where
  current : ∀ listener, IsOpen s.world.traffic listener → s.current = some listener
  shut : ∀ listener, IsShut s.world.traffic listener ↔
    .closed listener ∈ s.log ∨ s.control.closing? = some listener
  once : ∀ listener, s.control.closing? = some listener → .closed listener ∉ s.log

/-- A connection that an open listener is going to complete when it closes. -/
def Issued (t : Traffic) (id : Nat) : Prop :=
  ∃ (listener : Nat) (l : Listener), t.listeners[listener]? = some l ∧ l.closed = false ∧ id ∈ l.issued

/-- Whoever waits for a response is going to get it when the listener closes. -/
def Covered (s : System) : Prop :=
  ∀ id, Pending s.world.traffic id → Issued s.world.traffic id ∨ id ∈ s.control.detached

/-- A connection was registered with a listener, and its handler has come to a stage. -/
def RegisteredWith (t : Traffic) (id listener : Nat) (stage : Stage) : Prop :=
  ∃ c, t.connections[id]? = some c ∧ c.listener = listener ∧ c.stage = stage ∧ verdict c = some true

/-- Every handler that has registered with a listener is gone. -/
def Retired (t : Traffic) (listener : Nat) : Prop :=
  ∀ id stage, RegisteredWith t id listener stage → stage = .gone

/-- The listener whose unanswered connections are still to be waited for. -/
def Control.unsettled? : Control → Option Nat
  | .completing listener .. | .settling listener _ => some listener
  | _ => none

/-- Whoever has registered with a listener whose close has settled is gone. -/
def Cleared (s : System) : Prop :=
  ∀ listener, IsShut s.world.traffic listener → s.control.unsettled? ≠ some listener →
    Retired s.world.traffic listener

variable {s t : System} {traffic later : Traffic} {id other listener : Nat} {c : Connection}
  {p a w : Nat} {after : Control} {log events : List Event}

/-! ## Listeners -/

theorem closedAt_sealed (found : traffic.listeners[listener]? = some l) (other : Nat) :
    closedAt (setListener traffic listener (sealed l)) other =
      if listener = other then some true else closedAt traffic other :=
  closedAt_setListener found (sealed l) other

/-- A close shuts its listener, and no other. -/
theorem isShut_sealed (found : traffic.listeners[listener]? = some l) :
    IsShut (setListener traffic listener (sealed l)) other ↔
      listener = other ∨ IsShut traffic other := by
  rw [IsShut, closedAt_sealed found]
  by_cases same : listener = other
  · simp [same]
  · simp [same, IsShut]

theorem isOpen_sealed (found : traffic.listeners[listener]? = some l) :
    IsOpen (setListener traffic listener (sealed l)) other ↔
      listener ≠ other ∧ IsOpen traffic other := by
  rw [IsOpen, closedAt_sealed found]
  by_cases same : listener = other
  · simp [same]
  · simp [same, IsOpen]

/-- A new listener is open. -/
theorem isShut_push (opened : l.closed = false) :
    IsShut { traffic with listeners := traffic.listeners.push l } other ↔ IsShut traffic other := by
  rw [IsShut, closedAt_push]
  by_cases newest : other = traffic.listeners.size
  · subst newest
    simp [opened, IsShut, closedAt]
  · rw [if_neg newest, IsShut]

theorem isOpen_push (opened : l.closed = false) :
    IsOpen { traffic with listeners := traffic.listeners.push l } other ↔
      other = traffic.listeners.size ∨ IsOpen traffic other := by
  rw [IsOpen, closedAt_push]
  by_cases newest : other = traffic.listeners.size
  · simp [newest, opened]
  · simp [newest, IsOpen]

theorem closing_purpose (purpose : Purpose) : purpose.control.closing? = none := by
  cases purpose <;> rfl

theorem closing_armed (next : Armed) : next.control.closing? = none := by
  cases next <;> rfl

theorem closing_drained (next : Drained) (endpoints : List Endpoint) :
    (next.control endpoints).closing? = none := by
  cases next <;> rfl

theorem Moves.same_closing (moves : Moves s a w after) : after.closing? = s.control.closing? := by
  cases moves with
  | stay => rfl
  | armed control => rw [control, closing_armed]; rfl
  | unshut control => rw [control, closing_purpose]; rfl
  | found control | again control | wait control | woken control | unarmed control | written control
  | cycled control | completed control | settled control | refused control | opening control =>
    rw [control]; rfl

/-- A step that neither opens nor closes a listener. -/
theorem Confined.keeps (confined : Confined s)
    (closed : ∀ listener, closedAt t.world.traffic listener = closedAt s.world.traffic listener)
    (current : t.current = s.current) (closing : t.control.closing? = s.control.closing?)
    (log : ∀ listener, .closed listener ∈ t.log ↔ .closed listener ∈ s.log) : Confined t where
  current listener opened := by
    rw [current]
    exact confined.current listener ((closed listener).symm.trans opened)
  shut listener := by
    rw [IsShut, closed, log, closing]
    exact confined.shut listener
  once listener at_ := by
    rw [log]
    exact confined.once listener (closing ▸ at_)

theorem Confined.shuts (confined : Confined s) {id : Nat} (control : s.control = .shutting id purpose)
    (found : s.world.traffic.listeners[id]? = some l) (opened : l.closed = false) :
    Confined ((s.setTraffic (setListener s.world.traffic id (sealed l))).goto
      (.completing id l.issued purpose)) := by
  have was : IsOpen s.world.traffic id := Option.map_eq_some_iff.mpr ⟨l, found, opened⟩
  have current : s.current = some id := by rw [System.current, control]; rfl
  constructor
  · intro listener still
    obtain ⟨apart, still⟩ := (isOpen_sealed found).mp still
    have same := confined.current listener still
    exact absurd (Option.some.inj (current.symm.trans same)) apart
  · intro listener
    have before := confined.shut listener
    simp only [control, Control.closing?, reduceCtorEq, or_false] at before
    apply (isShut_sealed found).trans
    rw [before]
    simp [System.goto, System.setTraffic, Control.closing?, or_comm]
  · rintro _ ⟨⟩ already
    have shut := (confined.shut id).mpr (.inl already)
    exact absurd (was.symm.trans shut) (by simp)

theorem Confined.listens (confined : Confined s) (control : s.control = .listening type) (l : Listener)
    (opened : l.closed = false) :
    Confined ((s.setTraffic { s.world.traffic with
      listeners := s.world.traffic.listeners.push l }).goto
        (.attaching s.world.traffic.listeners.size)) := by
  have nobody : s.current = none := by rw [System.current, control]; rfl
  constructor
  · intro listener now
    rcases (isOpen_push opened).mp now with rfl | earlier
    · rfl
    · exact absurd (nobody.symm.trans (confined.current listener earlier)) (by simp)
  · intro listener
    have before := confined.shut listener
    rw [control] at before
    exact (isShut_push opened).trans before
  · simp [System.goto, Control.closing?]

theorem Confined.releases (confined : Confined s) {id : Nat} (control : s.control = .releasing id purpose)
    (waiters : Waiters) :
    Confined (((s.setWaiters waiters).record [.closed id]).goto purpose.control) := by
  have nobody : s.current = none := by rw [System.current, control]; rfl
  constructor
  · intro listener opened
    exact absurd (nobody.symm.trans (confined.current listener opened)) (by simp)
  · intro listener
    have before := confined.shut listener
    rw [control] at before
    apply before.trans
    show _ ↔ .closed listener ∈ .closed id :: s.log ∨ purpose.control.closing? = some listener
    rw [closing_purpose]
    simp [Control.closing?, or_comm, eq_comm]
  · intro listener at_
    simp [System.goto, closing_purpose] at at_

theorem Confined.interprets (confined : Confined s) (routed : Routed s.world s.control.place)
    (interprets : Interprets s p a w t) : Confined t := by
  cases interprets with
  | move moves =>
    exact confined.keeps (fun _ => rfl) (moves.same_current routed) moves.same_closing fun _ => .rfl
  | @take fresh next l first rest id control opened found inbox =>
    exact confined.keeps (closedAt_setListener_same found { l with inbox := rest } rfl)
      (current_of_place (by rw [control]; rfl) rfl) (by rw [control]; rfl) fun _ => .rfl
  | @drained fresh next control empty =>
    refine confined.keeps (fun _ => rfl) (current_of_place ?_ rfl) ?_ fun _ => .rfl
    · rw [control]
      exact place_drained _ _
    · rw [control]
      exact closing_drained _ _
  | @arm next control =>
    refine confined.keeps (fun _ => rfl) (current_of_place ?_ rfl) ?_ fun _ => .rfl
    · rw [control]
      exact (place_arming next).symm
    · rw [control]
      exact closing_armed next
  | write control | finish control | complete control =>
    exact confined.keeps (fun _ => rfl) (current_of_place (by rw [control]; rfl) rfl)
      (by rw [control]; rfl) (by simp [System.finish, System.record, System.goto, System.setTraffic])
  | shut control found opened => exact confined.shuts control found opened
  | writeAway control | read control | readAway control | disarm control =>
    exact confined.keeps (fun _ => rfl) (current_of_place (by rw [control]; rfl) rfl)
      (by rw [control]; rfl) fun _ => .rfl
  | release control held => exact confined.releases control _
  | listen control => exact confined.listens control _ rfl
  | hold control | attach control =>
    exact confined.keeps (fun _ => rfl) (by rw [System.current, System.current, control]; rfl)
      (by rw [control]; rfl) fun _ => .rfl
  | enter control | ended control =>
    rw [control] at routed
    refine confined.keeps (fun _ => rfl) ?_ (by rw [control]; rfl) fun _ => .rfl
    rw [System.current, System.current, control]
    exact routed

theorem Confined.handles (confined : Confined s)
    (handles : Handles s.world.traffic id c p a w traffic events) :
    Confined ((s.setTraffic traffic).record events) := by
  refine confined.keeps handles.closedAt rfl rfl ?_
  intro listener
  have other : .closed listener ∉ events := by
    intro member
    simpa [Event.subject?] using (handles.subject _ member).1
  show .closed listener ∈ events ++ s.log ↔ .closed listener ∈ s.log
  rw [List.mem_append, or_iff_right other]

theorem undertake_current (routed : Routed s.world s.control.place) (idle : s.control = .idle)
    (operation : Operation) : (s.undertake operation).current = s.current ∧
      (s.undertake operation).control.closing? = s.control.closing? := by
  have left (purpose : Purpose) : (s.leave purpose).current = s.current ∧
      (s.leave purpose).control.closing? = s.control.closing? := by
    simp only [System.current, System.leave, idle]
    cases s.world.listener with
    | none =>
      rw [place_purpose, closing_purpose]
      exact ⟨rfl, rfl⟩
    | some id => exact ⟨rfl, rfl⟩
  cases operation with
  | awaitConnection | broadcast | read | finishCycle =>
    simp only [System.current, System.undertake, System.goto, idle]
    exact ⟨rfl, rfl⟩
  | close => exact left .close
  | switch name =>
    unfold System.undertake
    dsimp only
    split
    · exact left (.switch name)
    next away =>
      rw [idle] at routed
      simp only [System.current, System.goto, idle, routed.unopened away]
      exact ⟨rfl, rfl⟩

theorem confined_initial : Confined (initial console session files config) := by
  constructor <;> simp [initial, IsOpen, IsShut, closedAt, Control.closing?]

/-- In every reachable state, at most one listener is open, and all others are closed or being
closed. -/
theorem Reachable.confined (reachable : Reachable s) : Confined s := by
  refine reachable.invariant (fun _ _ _ _ => confined_initial) ?_
  intro s t p a w action reached _ _ _ steps confined
  have routed := reached.tallied.routed
  cases steps with
  | arrive => exact confined.keeps (fun _ => rfl) rfl rfl fun _ => .rfl
  | handle known handles => exact confined.handles handles
  | interpret interprets => exact confined.interprets routed interprets
  | @undertake operation idle =>
    obtain ⟨traffic, log⟩ := undertake_traffic s operation
    obtain ⟨current, closing⟩ := undertake_current routed idle operation
    exact confined.keeps (by simp [traffic]) current closing (by simp [log])
  | unknown | busy => exact confined

/-! ## Responses -/

theorem Pending.of_update {f : Connection → Connection} (pending : Pending (traffic.update other f) id)
    (same : ∀ c, (f c).stage = c.stage ∧ (f c).finished = c.finished) : Pending traffic id := by
  obtain ⟨c, known, stage, incomplete⟩ := pending
  obtain ⟨before, known', ⟨-, rfl⟩ | ⟨-, rfl⟩⟩ := known_before_update known
  · rw [(same before).1] at stage
    exact ⟨before, known', stage, (same before).2.symm.trans incomplete⟩
  · exact ⟨c, known', stage, incomplete⟩

theorem Pending.of_finish (pending : Pending (traffic.finish other) id) :
    other ≠ id ∧ Pending traffic id := by
  obtain ⟨c, known, stage, incomplete⟩ := pending
  obtain ⟨before, known', ⟨-, rfl⟩ | ⟨apart, rfl⟩⟩ := known_before_update known
  · simp at incomplete
  · exact ⟨apart, c, known', stage, incomplete⟩

theorem Pending.of_arrive (pending : Pending (traffic.arrive listener body) id) :
    Pending traffic id := by
  obtain ⟨c, known, stage, incomplete⟩ := pending
  rcases known_before_arrive known with earlier | rfl
  · exact ⟨c, earlier, stage, incomplete⟩
  · simp at stage

theorem Issued.of_setListener (found : traffic.listeners[listener]? = some l) {l' : Listener}
    (opened : l'.closed = false) (member : id ∈ l'.issued) :
    Issued (setListener traffic listener l') id :=
  ⟨listener, l', (getElem?_setListener found l' listener).trans (if_pos rfl), opened, member⟩

/-- Changing a listener leaves what the others are going to complete. -/
theorem Issued.setListener (issued : Issued traffic id)
    (found : traffic.listeners[listener]? = some l) (l' : Listener) :
    Issued (setListener traffic listener l') id ∨ l.closed = false ∧ id ∈ l.issued := by
  obtain ⟨other, before, found', opened, member⟩ := issued
  by_cases same : listener = other
  · subst same
    obtain rfl := Option.some.inj (found.symm.trans found')
    exact .inr ⟨opened, member⟩
  · left
    refine ⟨other, before, ?_, opened, member⟩
    rw [getElem?_setListener found, if_neg same]
    exact found'

theorem Issued.handles (issued : Issued traffic id)
    (handles : Handles traffic other c p a w later events) : Issued later id := by
  cases handles with
  | @register l stage found opened =>
    rcases issued.setListener found (enlisted l other) with kept | ⟨-, member⟩
    · exact kept
    · exact Issued.of_setListener found opened (List.mem_append_left _ member)
  | _ => exact issued

/-- Who waits after the step of a handler did before, or has just registered. -/
theorem Pending.of_handles (pending : Pending later id)
    (handles : Handles traffic other c p a w later events)
    (known : traffic.connections[other]? = some c) : Pending traffic id ∨ Issued later id := by
  obtain ⟨c', known', stage, incomplete⟩ := pending
  by_cases apart : id = other
  · subst apart
    cases handles with
    | stay => exact .inl ⟨c', known', stage, incomplete⟩
    | @register l at_ found opened =>
      have newest : id ∈ (enlisted l id).issued :=
        List.mem_append_right _ (List.mem_singleton_self id)
      exact .inr (Issued.of_setListener found opened newest)
    | release at_ =>
      obtain rfl := Option.some.inj ((getElem?_update_self known _).symm.trans known')
      exact .inl ⟨c, known, .inl at_, incomplete⟩
    | _ =>
      obtain rfl := Option.some.inj ((getElem?_update_self known _).symm.trans known')
      simp at stage
  · exact .inl ⟨c', (handles.others apart).symm.trans known', stage, incomplete⟩

theorem Covered.keeps (covered : Covered s)
    (pending : ∀ id, Pending t.world.traffic id → Pending s.world.traffic id)
    (issued : ∀ id, Issued s.world.traffic id → Issued t.world.traffic id)
    (detached : ∀ id ∈ s.control.detached, id ∈ t.control.detached) : Covered t := by
  intro id waits
  exact (covered id (pending id waits)).imp (issued id) (detached id)

/-- The first of the detached connections is completed. -/
theorem Covered.finish (covered : Covered s) (control : s.control.detached = id :: left)
    (completed : t.world.traffic = s.world.traffic.finish id) (detached : t.control.detached = left) :
    Covered t := by
  intro other waits
  rw [completed] at waits
  obtain ⟨apart, before⟩ := Pending.of_finish waits
  rcases covered other before with issued | member
  · left
    rw [completed]
    exact issued
  · right
    rw [control, List.mem_cons] at member
    rw [detached]
    exact member.resolve_left (Ne.symm apart)

theorem Issued.push (issued : Issued traffic id) (l : Listener) :
    Issued { traffic with listeners := traffic.listeners.push l } id := by
  obtain ⟨listener, l', found, opened, member⟩ := issued
  have earlier : listener ≠ traffic.listeners.size := by
    rintro rfl
    simp at found
  exact ⟨listener, l', by simpa [Array.getElem?_push, earlier] using found, opened, member⟩

theorem Covered.interprets (covered : Covered s) (interprets : Interprets s p a w t) : Covered t := by
  cases interprets with
  | move moves =>
    refine covered.keeps (fun _ waits => waits) (fun _ issued => issued) ?_
    intro id member
    exact moves.same_detached ▸ member
  | @take fresh next l first rest id control opened found inbox =>
    refine covered.keeps (fun _ waits => waits) ?_ ?_
    · intro other issued
      rcases issued.setListener found { l with inbox := rest } with kept | ⟨opened, member⟩
      · exact kept
      · exact Issued.of_setListener found opened member
    · intro other member
      simp [control, Control.detached] at member
  | @arm next control =>
    refine covered.keeps (fun _ waits => waits) (fun _ issued => issued) ?_
    intro id member
    rw [control, detached_arming] at member
    exact member
  | write control | read control =>
    refine covered.keeps (fun _ waits => waits.of_update fun _ => ⟨rfl, rfl⟩) (fun _ issued => issued)
      ?_
    intro id member
    simp [control, Control.detached] at member
  | finish control | complete control =>
    exact covered.finish (by rw [control]; rfl) rfl rfl
  | @shut purpose l id control found opened =>
    intro other waits
    rcases covered other waits with issued | member
    · -- what the listener was to complete, its close takes over
      exact (issued.setListener found (sealed l)).imp_right And.right
    · simp [control, Control.detached] at member
  | listen control =>
    refine covered.keeps (fun _ waits => waits) (fun _ issued => issued.push _) ?_
    intro id member
    simp [control, Control.detached] at member
  | drained control | writeAway control | readAway control | disarm control | release control
  | enter control | hold control | attach control | ended control =>
    refine covered.keeps (fun _ waits => waits) (fun _ issued => issued) ?_
    intro id member
    simp [control, Control.detached] at member

theorem covered_initial : Covered (initial console session files config) := by
  rintro id ⟨c, known, -⟩
  simp [initial] at known

/-- In every reachable state, every response that is awaited is going to be completed by the close of
its listener at the latest. -/
theorem Reachable.covered (reachable : Reachable s) : Covered s := by
  refine reachable.invariant (fun _ _ _ _ => covered_initial) ?_
  intro s t p a w action reached _ _ _ steps covered
  cases steps with
  | arrive =>
    exact covered.keeps (fun _ waits => waits.of_arrive) (fun _ issued => issued) fun _ member => member
  | handle known handles =>
    intro id waits
    rcases Pending.of_handles waits handles known with before | registered
    · exact (covered id before).imp_left fun issued => issued.handles handles
    · exact .inl registered
  | interpret interprets => exact covered.interprets interprets
  | @undertake operation idle =>
    have same := (undertake_traffic s operation).1
    refine covered.keeps (by simp [same]) (by simp [same]) ?_
    intro id member
    simp [idle, Control.detached] at member
  | unknown | busy => exact covered

/-- While a close waits for the unanswered connections, none of them waits for the interpreter. -/
theorem Reachable.settling (reachable : Reachable s) {listener : Nat}
    (control : s.control = .settling listener purpose) : ∀ id, ¬ Pending s.world.traffic id := by
  intro id waits
  rcases reachable.covered id waits with ⟨other, l, found, opened, -⟩ | member
  · have current := reachable.confined.current other (Option.map_eq_some_iff.mpr ⟨l, found, opened⟩)
    simp [System.current, control, Control.place, currentOf] at current
  · simp [control, Control.detached] at member

/-! ## Handlers that are gone -/

theorem RegisteredWith.of_update {f : Connection → Connection}
    (registered : RegisteredWith (traffic.update other f) id listener stage)
    (same : ∀ c, (f c).stage = c.stage ∧ (f c).listener = c.listener ∧ (f c).reply = c.reply) :
    RegisteredWith traffic id listener stage := by
  obtain ⟨c, known, own, rfl, told⟩ := registered
  obtain ⟨before, known', ⟨-, rfl⟩ | ⟨-, rfl⟩⟩ := known_before_update known
  · obtain ⟨stage, listener, reply⟩ := same before
    refine ⟨before, known', listener.symm.trans own, stage.symm, ?_⟩
    rwa [verdict, stage, reply] at told
  · exact ⟨c, known', own, rfl, told⟩

theorem RegisteredWith.of_arrive
    (registered : RegisteredWith (traffic.arrive other body) id listener stage) :
    RegisteredWith traffic id listener stage := by
  obtain ⟨c, known, own, rfl, told⟩ := registered
  rcases known_before_arrive known with earlier | rfl
  · exact ⟨c, earlier, own, rfl, told⟩
  · simp [verdict] at told

/-- Who is registered after the step of a handler has just been registered at an open listener, or was
so before, and is gone if it was. -/
theorem RegisteredWith.of_handles (registered : RegisteredWith later id listener stage)
    (handles : Handles traffic other c p a w later events)
    (known : traffic.connections[other]? = some c) : IsOpen traffic listener ∨
      ∃ before, RegisteredWith traffic id listener before ∧ (before = .gone → stage = .gone) := by
  obtain ⟨c', known', own, rfl, told⟩ := registered
  by_cases apart : id = other
  · subst apart
    cases handles with
    | stay => exact .inr ⟨_, ⟨c', known', own, rfl, told⟩, fun gone => gone⟩
    | @register l at_ found opened =>
      obtain rfl := Option.some.inj ((getElem?_update_self known _).symm.trans known')
      subst own
      exact .inl (Option.map_eq_some_iff.mpr ⟨l, found, opened⟩)
    | leave at_ =>
      obtain rfl := Option.some.inj ((getElem?_update_self known _).symm.trans known')
      refine .inr ⟨_, ⟨c, known, own, at_, ?_⟩, fun _ => rfl⟩
      rw [verdict, at_]
      exact told
    | release at_ | proceed at_ | answer at_ =>
      obtain rfl := Option.some.inj ((getElem?_update_self known _).symm.trans known')
      exact .inr ⟨_, ⟨c, known, own, at_, by rw [verdict, at_]⟩, by simp⟩
    | _ =>
      obtain rfl := Option.some.inj ((getElem?_update_self known _).symm.trans known')
      simp [verdict, isAnswer] at told
  · exact .inr ⟨_, ⟨c', (handles.others apart).symm.trans known', own, rfl, told⟩, fun gone => gone⟩

/-- Nobody registers with a listener that is closed, and who is gone stays gone. -/
theorem Retired.handles (retired : Retired traffic listener) (shut : IsShut traffic listener)
    (handles : Handles traffic other c p a w later events)
    (known : traffic.connections[other]? = some c) : Retired later listener := by
  intro id stage registered
  rcases registered.of_handles handles known with opened | ⟨before, registered, gone⟩
  · exact absurd (opened.symm.trans shut) (by simp)
  · exact gone (retired id before registered)

/-- Where no connection is unanswered, whoever has registered is gone. -/
theorem Retired.of_answered (answered : unanswered traffic = 0) : Retired traffic listener := by
  rintro id _ ⟨c, known, -, rfl, registered⟩
  have uncounted : isCounted c.stage = false := by
    cases counted : isCounted c.stage with
    | true => simpa [answered] using unanswered_pos known counted
    | false => rfl
  cases stage : c.stage <;> simp_all [isCounted, verdict]

theorem unsettled_of_not_closing {control : Control} (away : control.closing? = none) :
    control.unsettled? = none := by
  cases control <;> first | rfl | simp [Control.closing?] at away

/-- A wait is over only where no connection is unanswered. -/
theorem Moves.unsettled (moves : Moves s a w after) :
    after.unsettled? = s.control.unsettled? ∨ w = 0 := by
  cases moves with
  | stay => exact .inl rfl
  | armed control => exact .inl (by rw [control, unsettled_of_not_closing (closing_armed _)]; rfl)
  | unshut control => exact .inl (by rw [control, unsettled_of_not_closing (closing_purpose _)]; rfl)
  | settled control zero => exact .inr zero
  | found control | again control | wait control | woken control | unarmed control | written control
  | cycled control | completed control | refused control | opening control =>
    exact .inl (by rw [control]; rfl)

theorem Cleared.keeps (cleared : Cleared s)
    (closed : ∀ listener, closedAt t.world.traffic listener = closedAt s.world.traffic listener)
    (unsettled : t.control.unsettled? = s.control.unsettled?)
    (retired : ∀ listener, IsShut s.world.traffic listener →
      Retired s.world.traffic listener → Retired t.world.traffic listener) : Cleared t := by
  intro listener shut settled
  have before : IsShut s.world.traffic listener := (closed listener).symm.trans shut
  exact retired listener before (cleared listener before (unsettled ▸ settled))

theorem Cleared.interprets (cleared : Cleared s) (rest : unanswered s.world.traffic = w)
    (interprets : Interprets s p a w t) : Cleared t := by
  cases interprets with
  | move moves =>
    rcases moves.unsettled with same | zero
    · exact cleared.keeps (fun _ => rfl) same fun _ _ retired => retired
    · intro listener _ _
      exact .of_answered (rest.trans zero)
  | @take fresh next l first rest id control opened found inbox =>
    exact cleared.keeps (closedAt_setListener_same found { l with inbox := rest } rfl)
      (by rw [control]; rfl) fun _ _ retired => retired
  | drained control =>
    exact cleared.keeps (fun _ => rfl)
      (by rw [control]; exact unsettled_of_not_closing (closing_drained _ _)) fun _ _ retired => retired
  | arm control =>
    exact cleared.keeps (fun _ => rfl)
      (by rw [control]; exact unsettled_of_not_closing (closing_armed _)) fun _ _ retired => retired
  | write control | read control | finish control | complete control =>
    refine cleared.keeps (fun _ => rfl) (by rw [control]; rfl) ?_
    intro listener _ retired id stage registered
    exact retired id stage (registered.of_update fun _ => ⟨rfl, rfl, rfl⟩)
  | @shut purpose l id control found opened =>
    intro listener shut settled
    rcases (isShut_sealed found).mp shut with rfl | earlier
    · exact absurd rfl settled
    · exact cleared listener earlier (by rw [control]; simp [Control.unsettled?])
  | release control =>
    exact cleared.keeps (fun _ => rfl)
      (by rw [control]; exact unsettled_of_not_closing (closing_purpose _)) fun _ _ retired => retired
  | @listen type control =>
    intro listener shut settled
    have earlier := (isShut_push rfl).mp shut
    exact cleared listener earlier (by rw [control]; simp [Control.unsettled?])
  | writeAway control | readAway control | disarm control | enter control | hold control
  | attach control | ended control =>
    exact cleared.keeps (fun _ => rfl) (by rw [control]; rfl) fun _ _ retired => retired

theorem cleared_initial : Cleared (initial console session files config) := by
  intro listener shut
  simp [initial, IsShut, closedAt] at shut

/-- In every reachable state, whoever has registered with a listener whose close has settled is
gone. -/
theorem Reachable.cleared (reachable : Reachable s) : Cleared s := by
  refine reachable.invariant (fun _ _ _ _ => cleared_initial) ?_
  intro s t p a w action reached _ _ rest steps cleared
  cases steps with
  | arrive =>
    refine cleared.keeps (fun _ => rfl) rfl ?_
    intro listener _ retired id stage registered
    exact retired id stage registered.of_arrive
  | handle known handles =>
    exact cleared.keeps handles.closedAt rfl fun _ shut retired => retired.handles shut handles known
  | interpret interprets => exact cleared.interprets rest interprets
  | @undertake operation idle =>
    have same := (undertake_traffic s operation).1
    have closing := (undertake_current reached.tallied.routed idle operation).2
    rw [idle] at closing
    refine cleared.keeps (by simp [same]) ?_ (by simp [same])
    rw [unsettled_of_not_closing closing, idle]
    rfl
  | unknown | busy => exact cleared

end TapeLang.Interleaving

import TapeLang.Proofs.Interleaving.Wakeup

/-!
Who can write to a connection, and who is going to complete its response. A connection that has
registered is in the inbox of its listener, among those being taken out of it, or attached; in all
these places it is live, and nothing has completed its response yet. A cycle detaches connections
before it completes them, and a listener is forgotten before its connections are completed. So the
live connections, and those a cycle has detached, never overlap (`Custody`), and only what is live is
written to (`Guarded.writes`).
-/
namespace TapeLang.Interleaving

open Http (Connection Listener Reply Stage Traffic)

/-- The listener that connections can register with. -/
def currentOf (listener : Option Nat) : Place → Option Nat
  | .free => listener
  | .attaching listener | .shutting listener => some listener
  | _ => none

def System.current (s : System) : Option Nat := currentOf s.world.listener s.control.place

/-- The connections taken out of the inbox and not attached yet. -/
def Control.fresh : Control → List Nat
  | .draining fresh _ => fresh
  | _ => []

/-- The connections whose responses are about to be completed. -/
def Control.detached : Control → List Nat
  | .counting (.finish left) | .arming (.finish left) | .finishing left | .completing _ left _ => left
  | _ => []

def System.attached (s : System) : List Nat := s.world.endpoints.filterMap connection?

/-- The connections that are, or can still become, attached. -/
def System.live (s : System) : List Nat :=
  inboxOf s.world.traffic s.current ++ (s.control.fresh ++ s.attached)

/-- A connection has registered, and its response is not complete. -/
def Pending (t : Traffic) (id : Nat) : Prop :=
  ∃ c, t.connections[id]? = some c ∧ (c.stage = .releasing ∨ c.stage = .waiting) ∧
    c.finished = false

/-- A connection has registered, or was turned away. -/
def Decided (t : Traffic) (id : Nat) : Prop :=
  ∃ c, t.connections[id]? = some c ∧ c.stage ≠ .counting ∧ c.stage ≠ .registering

/-- No response is complete before its connection is decided, and only connections that are decided
are kept for the close of a listener. -/
structure Registry (t : Traffic) : Prop where
  fresh : ∀ (id : Nat) (c : Connection), t.connections[id]? = some c →
    (c.stage = .counting ∨ c.stage = .registering) → c.finished = false
  issued : ∀ (listener : Nat) (l : Listener), t.listeners[listener]? = some l →
    ∀ id ∈ l.issued, Decided t id

structure Custody (t : Traffic) (live detached : List Nat) : Prop where
  nodup : live.Nodup
  apart : ∀ id ∈ live, id ∉ detached
  pending : ∀ id ∈ live, Pending t id
  decided : ∀ id ∈ detached, Decided t id

structure Guarded (s : System) : Prop where
  custody : Custody s.world.traffic s.live s.control.detached
  unattached : s.world.listener = none → s.control.fresh = [] ∧ s.attached = []
  writing : ∀ value left, s.control = .writing value left →
    ∀ id, .connection id ∈ left → .connection id ∈ s.world.endpoints

variable {s t : System} {traffic later : Traffic} {id other : Nat} {c : Connection} {p a w : Nat}
  {after : Control} {live detached : List Nat}

/-! ## Connections that change -/

theorem Pending.decided (pending : Pending traffic id) : Decided traffic id := by
  obtain ⟨c, known, stage | stage, -⟩ := pending <;> exact ⟨c, known, by simp [stage], by simp [stage]⟩

theorem Pending.update (pending : Pending traffic id) (other : Nat) {f : Connection → Connection}
    (same : ∀ c, (f c).stage = c.stage ∧ (f c).finished = c.finished) :
    Pending (traffic.update other f) id := by
  obtain ⟨c, known, stage, finished⟩ := pending
  by_cases apart : other = id
  · subst apart
    exact ⟨f c, getElem?_update_self known f, by rw [(same c).1]; exact stage,
      (same c).2.trans finished⟩
  · exact ⟨c, by rw [getElem?_update, if_neg apart]; exact known, stage, finished⟩

theorem Decided.update (decided : Decided traffic id) (other : Nat) {f : Connection → Connection}
    (same : ∀ c, (f c).stage = c.stage) : Decided (traffic.update other f) id := by
  obtain ⟨c, known, stage⟩ := decided
  by_cases apart : other = id
  · subst apart
    exact ⟨f c, getElem?_update_self known f, by rw [same c]; exact stage⟩
  · exact ⟨c, by rw [getElem?_update, if_neg apart]; exact known, stage⟩

/-- Completing one response leaves the others as they are. -/
theorem Pending.finish (pending : Pending traffic id) (apart : other ≠ id) :
    Pending (traffic.finish other) id := by
  obtain ⟨c, known, rest⟩ := pending
  refine ⟨c, ?_, rest⟩
  rw [Traffic.finish, getElem?_update, if_neg apart]
  exact known

/-- A connection that waits for its response does so until it is complete. -/
theorem Pending.handles (pending : Pending traffic id)
    (handles : Handles traffic other c p a w later events)
    (known : traffic.connections[other]? = some c) : Pending later id := by
  obtain ⟨c', known', stage, finished⟩ := pending
  by_cases apart : id = other
  · subst apart
    obtain rfl := Option.some.inj (known.symm.trans known')
    cases handles with
    | stay => exact ⟨c, known, stage, finished⟩
    | release => exact ⟨_, getElem?_update_self known _, .inr rfl, finished⟩
    | proceed _ complete => simp [finished] at complete
    | count at_ | reject at_ | register at_ | answer at_ | refuse at_ | leave at_ => simp [at_] at stage
  · exact ⟨c', (handles.others apart).trans known', stage, finished⟩

theorem Decided.handles (decided : Decided traffic id)
    (handles : Handles traffic other c p a w later events)
    (known : traffic.connections[other]? = some c) : Decided later id := by
  obtain ⟨c', known', counting, registering⟩ := decided
  by_cases apart : id = other
  · subst apart
    obtain rfl := Option.some.inj (known.symm.trans known')
    cases handles with
    | stay => exact ⟨c, known, counting, registering⟩
    | count at_ => exact absurd at_ counting
    | reject at_ | register at_ => exact absurd at_ registering
    | _ => exact ⟨_, getElem?_update_self known _, by simp, by simp⟩
  · exact ⟨c', (handles.others apart).trans known', counting, registering⟩

/-! ## The registry -/

theorem Registry.update (registry : Registry traffic) (other : Nat) {f : Connection → Connection}
    (same : ∀ c, (f c).stage = c.stage ∧ (f c).finished = c.finished) :
    Registry (traffic.update other f) where
  fresh id c known stage := by
    obtain ⟨before, known', ⟨-, rfl⟩ | ⟨-, rfl⟩⟩ := known_before_update known
    · rw [(same before).1] at stage
      exact (same before).2.trans (registry.fresh id before known' stage)
    · exact registry.fresh id c known' stage
  issued listener l found id member :=
    (registry.issued listener l found id member).update other fun c => (same c).1

theorem Registry.finish (registry : Registry traffic) (decided : Decided traffic other) :
    Registry (traffic.finish other) where
  fresh id c known stage := by
    obtain ⟨before, known', ⟨rfl, rfl⟩ | ⟨-, rfl⟩⟩ := known_before_update known
    · obtain ⟨_, known'', counting, registering⟩ := decided
      obtain rfl := Option.some.inj (known'.symm.trans known'')
      simp [counting, registering] at stage
    · exact registry.fresh id c known' stage
  issued listener l found id member :=
    (registry.issued listener l found id member).update other fun _ => rfl

theorem Registry.arrive (registry : Registry traffic) (listener : Nat) (body : List UInt8) :
    Registry (traffic.arrive listener body) where
  fresh id c known stage := by
    rcases known_before_arrive known with earlier | rfl
    · exact registry.fresh id c earlier stage
    · rfl
  issued listener' l found id member := by
    obtain ⟨c, known, rest⟩ := registry.issued listener' l found id member
    exact ⟨c, getElem?_arrive known listener body, rest⟩

theorem Registry.setListener (registry : Registry traffic)
    (found : traffic.listeners[other]? = some l) (l' : Listener)
    (decided : ∀ id ∈ l'.issued, Decided traffic id) : Registry (setListener traffic other l') where
  fresh := registry.fresh
  issued listener after found' id member := by
    rw [getElem?_setListener found] at found'
    split at found'
    · obtain rfl := Option.some.inj found'
      exact decided id member
    · exact registry.issued listener after found' id member

theorem Registry.handles (registry : Registry traffic)
    (handles : Handles traffic other c p a w later events)
    (known : traffic.connections[other]? = some c) : Registry later where
  fresh id c' known' stage := by
    by_cases apart : id = other
    · subst apart
      cases handles with
      | stay => exact registry.fresh id c' known' stage
      | count at_ =>
        obtain rfl := Option.some.inj ((getElem?_update_self known _).symm.trans known')
        exact registry.fresh id c known (.inl at_)
      | _ =>
        obtain rfl := Option.some.inj ((getElem?_update_self known _).symm.trans known')
        simp at stage
    · exact registry.fresh id c' ((handles.others apart).symm.trans known') stage
  issued listener l found id member := by
    have kept (x : Nat) (decided : Decided traffic x) : Decided later x :=
      decided.handles handles known
    cases handles with
    | @register l' at_ found' opened =>
      change (Interleaving.setListener _ _ _).listeners[listener]? = some l at found
      rw [getElem?_setListener found'] at found
      split at found
      · obtain rfl := Option.some.inj found
        rcases List.mem_append.mp member with earlier | newest
        · exact kept id (registry.issued _ _ found' id earlier)
        · obtain rfl := List.mem_singleton.mp newest
          exact ⟨_, getElem?_update_self known _, by simp, by simp⟩
      · exact kept id (registry.issued listener l found id member)
    | _ => exact kept id (registry.issued listener l found id member)

theorem Registry.interprets (registry : Registry s.world.traffic)
    (decided : ∀ id ∈ s.control.detached, Decided s.world.traffic id)
    (interprets : Interprets s p a w t) : Registry t.world.traffic := by
  have finish (id : Nat) (member : id ∈ s.control.detached) := registry.finish (decided id member)
  cases interprets with
  | write | read => exact registry.update _ fun _ => ⟨rfl, rfl⟩
  | finish control | complete control => exact finish _ (by rw [control]; exact List.mem_cons_self)
  | @take fresh next l first rest id control opened found inbox =>
    exact registry.setListener found { l with inbox := rest } (registry.issued id l found)
  | @shut purpose l id control found opened =>
    exact registry.setListener found (sealed l) fun id member => absurd member List.not_mem_nil
  | listen =>
    refine ⟨registry.fresh, ?_⟩
    intro listener l' found'
    simp only [System.goto, System.setTraffic, Array.getElem?_push] at found'
    split at found'
    · obtain rfl := Option.some.inj found'
      simp
    · exact registry.issued listener l' found'
  | _ => exact ⟨registry.fresh, registry.issued⟩

/-! ## Custody -/

theorem Custody.mono (custody : Custody traffic live detached)
    (pending : ∀ id ∈ live, Pending traffic id → Pending later id)
    (decided : ∀ id, Decided traffic id → Decided later id) : Custody later live detached where
  nodup := custody.nodup
  apart := custody.apart
  pending id member := pending id member (custody.pending id member)
  decided id member := decided id (custody.decided id member)

theorem Custody.perm (custody : Custody traffic live detached) {same : List Nat}
    (perm : live.Perm same) : Custody traffic same detached where
  nodup := perm.nodup custody.nodup
  apart id member := custody.apart id (perm.mem_iff.mpr member)
  pending id member := custody.pending id (perm.mem_iff.mpr member)
  decided := custody.decided

/-- Where nothing is live, whatever is decided can be completed. -/
theorem Custody.of_decided (decided : ∀ id ∈ detached, Decided traffic id) :
    Custody traffic [] detached := ⟨List.nodup_nil, by simp, by simp, decided⟩

/-- What is live is detached. -/
theorem Custody.detach {more : List Nat} (custody : Custody traffic (live ++ more) []) :
    Custody traffic live more where
  nodup := (List.nodup_append.mp custody.nodup).1
  apart id member other := (List.nodup_append.mp custody.nodup).2.2 id member id other rfl
  pending id member := custody.pending id (List.mem_append_left more member)
  decided id member := (custody.pending id (List.mem_append_right live member)).decided

theorem Custody.forget (custody : Custody traffic live detached) : Custody traffic live [] :=
  ⟨custody.nodup, by simp, custody.pending, by simp⟩

/-- The first of the detached connections is completed. -/
theorem Custody.finish (custody : Custody traffic live (id :: detached)) :
    Custody (traffic.finish id) live detached where
  nodup := custody.nodup
  apart other member later := custody.apart other member (List.mem_cons_of_mem id later)
  pending other member := by
    have apart : id ≠ other := by
      rintro rfl
      exact custody.apart id member List.mem_cons_self
    exact (custody.pending other member).finish apart
  decided other member :=
    (custody.decided other (List.mem_cons_of_mem id member)).update id fun _ => rfl

theorem Custody.push (custody : Custody traffic live detached) (pending : Pending traffic id)
    (absent : id ∉ live) (apart : id ∉ detached) : Custody traffic (id :: live) detached where
  nodup := List.nodup_cons.mpr ⟨absent, custody.nodup⟩
  apart other member := by
    rcases List.mem_cons.mp member with rfl | later
    · exact apart
    · exact custody.apart other later
  pending other member := by
    rcases List.mem_cons.mp member with rfl | later
    · exact pending
    · exact custody.pending other later
  decided := custody.decided

/-- A connection that registers was neither live nor detached. -/
theorem Custody.register (custody : Custody traffic live detached)
    (known : traffic.connections[id]? = some c) (stage : c.stage = .registering) :
    id ∉ live ∧ id ∉ detached := by
  have undecided : ¬ Decided traffic id := by
    rintro ⟨c', known', -, registering⟩
    obtain rfl := Option.some.inj (known.symm.trans known')
    exact registering stage
  exact ⟨fun member => undecided (custody.pending id member).decided,
    fun member => undecided (custody.decided id member)⟩

/-! ## One step -/

theorem filterMap_connection (ids : List Nat) :
    (ids.map Endpoint.connection).filterMap connection? = ids := by
  simp [List.filterMap_map, Function.comp_def, connection?]

theorem fresh_purpose (purpose : Purpose) : purpose.control.fresh = [] := by
  cases purpose <;> rfl

theorem detached_purpose (purpose : Purpose) : purpose.control.detached = [] := by
  cases purpose <;> rfl

theorem fresh_armed (next : Armed) : next.control.fresh = [] := by
  cases next <;> rfl

theorem detached_counting (next : Armed) :
    (Control.counting next).detached = next.control.detached := by
  cases next <;> rfl

theorem detached_arming (next : Armed) :
    (Control.arming next).detached = next.control.detached := by
  cases next <;> rfl

theorem fresh_drained (next : Drained) (endpoints : List Endpoint) :
    (next.control endpoints).fresh = [] := by
  cases next <;> rfl

theorem detached_drained (next : Drained) (endpoints : List Endpoint) :
    (next.control endpoints).detached = [] := by
  cases next <;> rfl

theorem current_of_place (place : t.control.place = s.control.place)
    (listener : t.world.listener = s.world.listener) : t.current = s.current := by
  rw [System.current, System.current, place, listener]

/-- A step that leaves who is live and who is detached, and no response complete that was not. -/
theorem Guarded.keeps (guarded : Guarded s) (current : t.current = s.current)
    (fresh : t.control.fresh = s.control.fresh) (detached : t.control.detached = s.control.detached)
    (listener : t.world.listener = s.world.listener)
    (endpoints : t.world.endpoints = s.world.endpoints)
    (inbox : ∀ listener, inboxOf t.world.traffic listener = inboxOf s.world.traffic listener)
    (pending : ∀ id, Pending s.world.traffic id → Pending t.world.traffic id)
    (decided : ∀ id, Decided s.world.traffic id → Decided t.world.traffic id)
    (writing : ∀ value left, t.control = .writing value left →
      ∀ id, .connection id ∈ left → .connection id ∈ s.world.endpoints) : Guarded t where
  custody := by
    rw [System.live, System.attached, current, fresh, endpoints, inbox, detached]
    exact guarded.custody.mono (fun id _ => pending id) decided
  unattached none := by
    rw [System.attached, fresh, endpoints]
    exact guarded.unattached (listener ▸ none)
  writing value left control id member := endpoints ▸ writing value left control id member

/-- A step after which nobody is live. -/
theorem Guarded.of_nobody (current : t.current = none) (fresh : t.control.fresh = [])
    (attached : t.attached = []) (decided : ∀ id ∈ t.control.detached, Decided t.world.traffic id)
    (writing : ∀ value left, t.control ≠ .writing value left) : Guarded t where
  custody := by
    rw [System.live, current, fresh, attached]
    exact .of_decided decided
  unattached _ := ⟨fresh, attached⟩
  writing value left control := absurd control (writing value left)

theorem Moves.same_current (moves : Moves s a w after) (routed : Routed s.world s.control.place) :
    (s.goto after).current = s.current := by
  rcases moves.place routed with same | ⟨away, free⟩
  · exact congrArg (currentOf s.world.listener) same
  · rw [away] at routed
    simp only [System.current, System.goto, away, free, currentOf]
    exact routed

theorem Moves.same_fresh (moves : Moves s a w after) : after.fresh = s.control.fresh := by
  cases moves with
  | stay => rfl
  | armed control => rw [control, fresh_armed]; rfl
  | unshut control => rw [control, fresh_purpose]; rfl
  | found control | again control | wait control | woken control | unarmed control | written control
  | cycled control | completed control | settled control | refused control | opening control =>
    rw [control]; rfl

theorem Moves.same_detached (moves : Moves s a w after) : after.detached = s.control.detached := by
  cases moves with
  | stay => rfl
  | armed control => rw [control, detached_counting]
  | unshut control => rw [control, detached_purpose]; rfl
  | unarmed control => rw [control, detached_counting, detached_arming]
  | found control | again control | wait control | woken control | written control | cycled control
  | completed control | settled control | refused control | opening control =>
    rw [control]; rfl

theorem Moves.writing (moves : Moves s a w after) (control : after = .writing value left) :
    s.control = .writing value left := by
  cases moves with
  | stay => exact control
  | armed => cases ‹Armed› <;> simp [Armed.control] at control
  | unshut => cases ‹Purpose› <;> simp [Purpose.control] at control
  | _ => simp at control

theorem Guarded.moves (guarded : Guarded s) (routed : Routed s.world s.control.place)
    (moves : Moves s a w after) : Guarded (s.goto after) := by
  refine guarded.keeps (moves.same_current routed) moves.same_fresh moves.same_detached rfl rfl
    (fun _ => rfl) (fun _ pending => pending) (fun _ decided => decided) ?_
  intro value left control
  exact guarded.writing value left (moves.writing control)

/-- A connection that is taken out of the inbox stays live. -/
theorem Guarded.take (guarded : Guarded s) {id : Nat} (control : s.control = .draining fresh next)
    (opened : s.world.listener = some id) (found : s.world.traffic.listeners[id]? = some l)
    (inbox : l.inbox = first :: rest) :
    Guarded ((s.setTraffic (setListener s.world.traffic id { l with inbox := rest })).goto
      (.draining (fresh ++ [first]) next)) := by
  have before : inboxOf s.world.traffic (some id) = first :: rest := (inboxOf_found found).trans inbox
  have after : inboxOf (setListener s.world.traffic id { l with inbox := rest }) (some id) = rest :=
    (inboxOf_setListener found _ _).trans (if_pos rfl)
  have moved : ((first :: rest) ++ (fresh ++ s.attached)).Perm
      (rest ++ ((fresh ++ [first]) ++ s.attached)) := by
    simpa using (@List.perm_middle _ first (rest ++ fresh) s.attached).symm
  have custody := guarded.custody
  simp only [System.live, System.current, control, Control.place, currentOf, opened, before,
    Control.fresh, Control.detached] at custody
  refine ⟨?_, by simp [System.goto, System.setTraffic, opened], by simp [System.goto]⟩
  simp only [System.live, System.current, System.goto, System.setTraffic, Control.place, currentOf,
    opened, after, Control.fresh, Control.detached]
  exact (custody.perm moved).mono (fun _ _ pending => pending) fun _ decided => decided

/-- Connections that were taken out of the inbox are attached. -/
theorem Guarded.drained (guarded : Guarded s) (control : s.control = .draining fresh next) :
    Guarded { s with
      world := { s.world with endpoints := s.world.endpoints ++ fresh.map .connection }
      control := next.control (s.world.endpoints ++ fresh.map .connection) } := by
  have attached : (s.world.endpoints ++ fresh.map Endpoint.connection).filterMap connection? =
      s.attached ++ fresh := by
    rw [List.filterMap_append, filterMap_connection]
    rfl
  constructor
  · have custody := guarded.custody
    simp only [System.live, System.current, control, Control.place, currentOf, Control.fresh,
      Control.detached] at custody
    simp only [System.live, System.current, place_drained, currentOf, fresh_drained,
      detached_drained, System.attached, List.nil_append]
    rw [attached]
    exact custody.perm (List.perm_append_comm.append_left _)
  · intro away
    have nobody := guarded.unattached away
    rw [control] at nobody
    rw [fresh_drained, System.attached, attached]
    exact ⟨rfl, List.append_eq_nil_iff.mpr ⟨nobody.2, nobody.1⟩⟩
  · intro value left writing id member
    cases next <;> simp only [Drained.control, reduceCtorEq, Control.writing.injEq] at writing
    rw [writing.2]
    exact member

/-- The inbox of a new listener is empty. -/
theorem Guarded.listen (guarded : Guarded s) (away : s.world.listener = none) (type : Option String) :
    Guarded ((s.setTraffic { s.world.traffic with
      listeners := s.world.traffic.listeners.push { contentType := type } }).goto
        (.attaching s.world.traffic.listeners.size)) := by
  have unattached : s.attached = [] := (guarded.unattached away).2
  have nobody : ((s.setTraffic { s.world.traffic with
      listeners := s.world.traffic.listeners.push { contentType := type } }).goto
        (.attaching s.world.traffic.listeners.size)).live = [] := by
    simpa [System.live, System.current, System.goto, System.setTraffic, Control.place, currentOf,
      inboxOf, Control.fresh, System.attached] using unattached
  refine ⟨?_, fun _ => ⟨rfl, unattached⟩, by simp [System.goto]⟩
  rw [nobody]
  exact .of_decided (by simp [System.goto, Control.detached])

theorem Guarded.interprets (guarded : Guarded s) (registry : Registry s.world.traffic)
    (routed : Routed s.world s.control.place) (interprets : Interprets s p a w t) : Guarded t := by
  have unattached (away : s.world.listener = none) := (guarded.unattached away).2
  cases interprets with
  | move moves => exact guarded.moves routed moves
  | take control opened found inbox => exact guarded.take control opened found inbox
  | drained control empty => exact guarded.drained control
  | @arm next control =>
    refine guarded.keeps (current_of_place (by rw [control]; exact (place_arming next).symm) rfl)
      (by rw [control]; exact fresh_armed next) (by rw [control]; exact (detached_arming next).symm)
      rfl rfl (fun _ => rfl) (fun _ pending => pending) (fun _ decided => decided) ?_
    intro value left writing
    cases next <;> simp [System.goto, Armed.control] at writing
  | @write value rest id control =>
    refine guarded.keeps (current_of_place (by rw [control]; rfl) rfl) (by rw [control]; rfl)
      (by rw [control]; rfl) rfl rfl (fun _ => rfl)
      (fun _ pending => pending.update id fun _ => ⟨rfl, rfl⟩)
      (fun _ decided => decided.update id fun _ => rfl) ?_
    rintro _ _ ⟨⟩ other member
    exact guarded.writing value _ control other (List.mem_cons_of_mem _ member)
  | @writeAway value endpoint rest v control =>
    refine guarded.keeps (current_of_place (by rw [control]; rfl) rfl) (by rw [control]; rfl)
      (by rw [control]; rfl) rfl rfl (fun _ => rfl) (fun _ pending => pending)
      (fun _ decided => decided) ?_
    rintro _ _ ⟨⟩ other member
    exact guarded.writing value _ control other (List.mem_cons_of_mem _ member)
  | @read input id control =>
    exact guarded.keeps (current_of_place (by rw [control]; rfl) rfl) (by rw [control]; rfl)
      (by rw [control]; rfl) rfl rfl (fun _ => rfl)
      (fun _ pending => pending.update id fun _ => ⟨rfl, rfl⟩)
      (fun _ decided => decided.update id fun _ => rfl) (by simp [System.goto])
  | readAway control =>
    exact guarded.keeps (current_of_place (by rw [control]; rfl) rfl) (by rw [control]; rfl)
      (by rw [control]; rfl) rfl rfl (fun _ => rfl) (fun _ pending => pending)
      (fun _ decided => decided) (by simp [System.goto])
  | @finish left id control =>
    have custody := guarded.custody
    simp only [System.live, System.current, control] at custody
    exact ⟨custody.finish, fun away => ⟨rfl, unattached away⟩, by simp [System.goto]⟩
  | @shut purpose l id control found opened =>
    rw [control] at routed
    exact .of_nobody rfl rfl (unattached routed.1) (registry.issued id l found) (by simp [System.goto])
  | @complete first left purpose id control =>
    rw [control] at routed
    have custody := guarded.custody
    rw [control] at custody
    exact .of_nobody rfl rfl (unattached routed) custody.finish.decided (by simp [System.goto])
  | disarm control | hold control =>
    rw [control] at routed
    exact .of_nobody rfl rfl (unattached routed) (by simp [System.goto, Control.detached])
      (by simp [System.goto])
  | @release purpose left id control held =>
    rw [control] at routed
    refine .of_nobody ?_ (fresh_purpose purpose) (unattached routed) ?_ ?_
    · show currentOf _ purpose.control.place = none
      rw [place_purpose]
      rfl
    · simp [System.goto, detached_purpose]
    · cases purpose <;> simp [System.goto, Purpose.control]
  | @enter name v control endpoints =>
    rw [control] at routed
    refine .of_nobody routed rfl ?_ (by simp [Control.detached]) (by simp)
    rcases endpoints with same | none
    · exact (congrArg (·.filterMap connection?) same).trans (unattached routed)
    · exact none
  | @listen type control =>
    rw [control] at routed
    exact guarded.listen routed _
  | @attach id control =>
    rw [control] at routed
    have custody := guarded.custody
    simp only [System.live, System.current, control, unattached routed.1] at custody
    exact ⟨custody, by simp [System.attachStep], by simp [System.attachStep]⟩
  | ended control =>
    rw [control] at routed
    exact .of_nobody routed rfl (unattached routed) (by simp [System.endStep, Control.detached])
      (by simp [System.endStep])

theorem Guarded.handles (guarded : Guarded s) (registry : Registry s.world.traffic)
    (known : s.world.traffic.connections[id]? = some c)
    (handles : Handles s.world.traffic id c p a w traffic events) :
    Guarded ((s.setTraffic traffic).record events) := by
  refine ⟨?_, guarded.unattached, guarded.writing⟩
  have kept : Custody traffic s.live s.control.detached :=
    guarded.custody.mono (fun _ _ pending => pending.handles handles known)
      fun _ decided => decided.handles handles known
  have live : ((s.setTraffic traffic).record events).live =
    inboxOf traffic s.current ++ (s.control.fresh ++ s.attached) := rfl
  rw [live]
  rcases handles.inbox known s.current with same | ⟨stage, more, after⟩
  · rw [same]
    exact kept
  · have ⟨absent, apart⟩ := guarded.custody.register known stage
    have pending : Pending traffic id :=
      ⟨_, after, .inl rfl, registry.fresh id c known (.inr stage)⟩
    have moved : (id :: s.live).Perm
        (inboxOf s.world.traffic s.current ++ [id] ++ (s.control.fresh ++ s.attached)) := by
      rw [List.append_assoc]
      exact List.perm_middle.symm
    rw [more]
    exact (kept.push pending absent apart).perm moved

theorem Guarded.arrive (guarded : Guarded s) (listener : Nat) (body : List UInt8) :
    Guarded (s.setTraffic (s.world.traffic.arrive listener body)) := by
  refine guarded.keeps rfl rfl rfl rfl rfl (fun _ => rfl) ?_ ?_ guarded.writing
  · rintro id ⟨c, known, rest⟩
    exact ⟨c, getElem?_arrive known listener body, rest⟩
  · rintro id ⟨c, known, rest⟩
    exact ⟨c, getElem?_arrive known listener body, rest⟩

theorem Guarded.leave (guarded : Guarded s) (idle : s.control = .idle) (purpose : Purpose) :
    Guarded (s.leave purpose) := by
  cases listener : s.world.listener with
  | none =>
    have away : (s.leave purpose).control = purpose.control := by
      simp only [System.leave, listener]
    refine .of_nobody ?_ ?_ rfl ?_ ?_
    · rw [System.current, away, place_purpose]
      rfl
    · rw [away, fresh_purpose]
    · rw [away, detached_purpose]
      simp
    · rw [away]
      cases purpose <;> simp [Purpose.control]
  | some id =>
    have shuts : (s.leave purpose).control = .shutting id purpose := by
      simp only [System.leave, listener]
    refine ⟨?_, fun _ => ⟨by rw [shuts]; rfl, rfl⟩, by simp [shuts]⟩
    have custody := guarded.custody
    rw [System.live, System.current, idle, listener] at custody
    rw [System.live, System.current, shuts]
    simp only [Control.fresh, System.attached, System.leave, List.filterMap_nil, List.append_nil]
    exact (Custody.detach custody).forget

theorem Guarded.undertake (guarded : Guarded s) (routed : Routed s.world s.control.place)
    (idle : s.control = .idle) (operation : Operation) : Guarded (s.undertake operation) := by
  cases operation with
  | awaitConnection | broadcast | read =>
    exact guarded.keeps (current_of_place (by rw [idle]; rfl) rfl) (by rw [idle]; rfl)
      (by rw [idle]; rfl) rfl rfl (fun _ => rfl) (fun _ pending => pending)
      (fun _ decided => decided) (by simp [System.undertake, System.goto])
  | finishCycle =>
    refine ⟨?_, fun _ => ⟨rfl, rfl⟩, by simp [System.undertake]⟩
    have custody := guarded.custody
    rw [System.live, System.current, idle] at custody
    rw [System.live]
    simp only [System.undertake, Control.fresh, System.attached, List.filterMap_nil, List.append_nil]
    exact Custody.detach custody
  | close => exact guarded.leave idle .close
  | switch name =>
    unfold System.undertake
    dsimp only
    split
    · exact guarded.leave idle (.switch name)
    next away =>
      rw [idle] at routed
      have none := routed.unopened away
      exact .of_nobody rfl rfl (guarded.unattached none).2 (by simp [System.goto, Control.detached])
        (by simp [System.goto])

/-- What is written to is live. -/
theorem Guarded.written (guarded : Guarded s)
    (control : s.control = .writing value (.connection id :: rest)) : Pending s.world.traffic id := by
  have endpoint := guarded.writing value _ control id List.mem_cons_self
  have attached : id ∈ s.attached := List.mem_filterMap.mpr ⟨.connection id, endpoint, rfl⟩
  apply guarded.custody.pending
  exact List.mem_append_right _ (List.mem_append_right _ attached)

/-! ## Runs -/

/-- What is begun changes nothing that handlers see. -/
theorem undertake_traffic (s : System) (operation : Operation) :
    (s.undertake operation).world.traffic = s.world.traffic ∧
      (s.undertake operation).log = s.log := by
  cases operation with
  | switch name =>
    unfold System.undertake
    dsimp only
    split <;> exact ⟨rfl, rfl⟩
  | _ => exact ⟨rfl, rfl⟩

theorem guarded_initial : Registry (initial console session files config).world.traffic ∧
    Guarded (initial console session files config) :=
  ⟨⟨by simp [initial], by simp [initial]⟩,
    .of_nobody rfl rfl rfl (by simp [initial, Control.detached]) (by simp [initial])⟩

/-- In every reachable state, what is live is not about to be completed. -/
theorem Reachable.guarded (reachable : Reachable s) : Registry s.world.traffic ∧ Guarded s := by
  refine @Reachable.invariant s (fun s => Registry s.world.traffic ∧ Guarded s) ?_ ?_ reachable
  · exact fun _ _ _ _ => guarded_initial
  · rintro s t p a w action reached - - - steps ⟨registry, guarded⟩
    have routed := reached.tallied.routed
    cases steps with
    | arrive => exact ⟨registry.arrive _ _, guarded.arrive _ _⟩
    | handle known handles =>
      exact ⟨registry.handles handles known, guarded.handles registry known handles⟩
    | interpret interprets =>
      exact ⟨registry.interprets guarded.custody.decided interprets,
        guarded.interprets registry routed interprets⟩
    | @undertake operation idle =>
      exact ⟨(undertake_traffic s operation).1 ▸ registry, guarded.undertake routed idle operation⟩
    | unknown | busy => exact ⟨registry, guarded⟩

end TapeLang.Interleaving

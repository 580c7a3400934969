import TapeLang.Proofs.Interleaving.Progress

/-!
How operations go through. From the moment that an operation is begun, the interpreter takes its steps
and handlers go on in between (`Advances`), up to the step that ends it with a verdict (`Completes`).
Where handlers go as far as they can whenever the interpreter waits for them, an operation comes to what
the world's operation of that name does, and its verdict is the result. What an operation finds in the
groups is a hypothesis here.
-/
namespace TapeLang.Interleaving

open Http (Connection Listener Reply Stage Traffic)
open Source (Target)

/-- What an operation comes to that ends with the next step: the byte that was read, if it reads, or
why it fails. -/
def System.verdict (s : System) : Except Stop (Option UInt8) :=
  match s.control with
  | .reading => (s.world.readLive.2.map some).mapError fun error => .failure (.os error)
  | .writing value (endpoint :: _) =>
    ((s.world.writeByte value endpoint).map fun _ => none).mapError fun error => .failure (.os error)
  | .entering name => (s.world.enter name).2.map fun _ => none
  | _ => .ok none

/-- Whether the interpreter is at work on an operation whose end is the end of a statement. -/
def Control.isActing : Control → Bool
  | .idle | .testing _ => false
  | _ => true

/-- Steps of the interpreter within an operation, and of handlers. -/
inductive Advances (s : System) : System → Prop where
  | refl : Advances s s
  | interpret (advances : Advances s t) (interpreted : t.interpret = .ok u) (busy : u.control ≠ .idle) :
    Advances s u
  | handle {id : Nat} (advances : Advances s t) (handled : t.handle id = .ok u) : Advances s u

/-- Such steps up to the one that ends the operation, with the verdict on it. -/
inductive Completes (s t : System) (verdict : Except Stop (Option UInt8)) : Prop where
  | intro (advances : Advances s last) (acting : last.control.isActing = true)
    (interpreted : last.interpret = .ok t) (ended : t.control = .idle) (same : last.verdict = verdict)

/-- Such steps up to the one that finds a connection attached. -/
inductive Attaches (s t : System) : Prop where
  | intro {again : Bool} (advances : Advances s last) (control : last.control = .testing again)
    (interpreted : last.interpret = .ok t) (ended : t.control = .idle)

/-- Handlers alone take the traffic of any state to another. -/
def Serves (t u : Traffic) : Prop :=
  ∀ (w : World) (control : Control) (log : List Event),
    ∃ log', Advances ⟨{ w with traffic := t }, control, log⟩ ⟨{ w with traffic := u }, control, log'⟩

variable {s t u : System} {w v : World} {traffic later : Traffic} {id p a rest : Nat} {log : List Event}
  {verdict : Except Stop (Option UInt8)}

theorem ne_idle_of_isActing {control : Control} (acting : control.isActing = true) : control ≠ .idle := by
  rintro rfl
  simp [Control.isActing] at acting

/-! ## Steps in sequence -/

theorem Advances.trans (advances : Advances s t) (further : Advances t u) : Advances s u := by
  induction further with
  | refl => exact advances
  | interpret _ interpreted busy ih => exact ih.interpret interpreted busy
  | handle _ handled ih => exact ih.handle handled

theorem Advances.once (interpreted : s.interpret = .ok t) (busy : t.control ≠ .idle) : Advances s t :=
  Advances.refl.interpret interpreted busy

theorem Completes.after (completes : Completes t u verdict) (advances : Advances s t) :
    Completes s u verdict := by
  obtain ⟨further, acting, interpreted, ended, same⟩ := completes
  exact ⟨advances.trans further, acting, interpreted, ended, same⟩

theorem Attaches.after (attaches : Attaches t u) (advances : Advances s t) : Attaches s u := by
  obtain ⟨further, control, interpreted, ended⟩ := attaches
  exact ⟨advances.trans further, control, interpreted, ended⟩

theorem Reachable.advances (reachable : Reachable s) (advances : Advances s t) : Reachable t := by
  induction advances with
  | refl => exact reachable
  | @interpret t u _ interpreted _ ih => exact ih.step (show t.step .interpret = .ok u from interpreted)
  | @handle t u id _ handled ih => exact ih.step (show t.step (.handle id) = .ok u from handled)

theorem Reachable.completes (reachable : Reachable s) (completes : Completes s t verdict) :
    Reachable t := by
  obtain @⟨last, advances, -, interpreted, -, -⟩ := completes
  exact (reachable.advances advances).step (show last.step .interpret = .ok t from interpreted)

theorem Reachable.attaches (reachable : Reachable s) (attaches : Attaches s t) : Reachable t := by
  obtain @⟨last, _, advances, -, interpreted, -⟩ := attaches
  exact (reachable.advances advances).step (show last.step .interpret = .ok t from interpreted)

/-! ## Handlers -/

/-- A step after one that may be at fault comes after one that is not. -/
theorem ok_of_bind_ok {ε α β : Type} {x : Except ε α} {f : α → Except ε β} {b : β}
    (bound : x >>= f = .ok b) : ∃ a, x = .ok a ∧ f a = .ok b := by
  cases x with
  | error fault => simp [bind, Except.bind] at bound
  | ok a => exact ⟨a, rfl, bound⟩

theorem Serves.refl (traffic : Traffic) : Serves traffic traffic :=
  fun _ _ log => ⟨log, .refl⟩

theorem Serves.trans {between : Traffic} (first : Serves traffic between)
    (second : Serves between later) : Serves traffic later := by
  intro w control log
  obtain ⟨log', advances⟩ := first w control log
  obtain ⟨log'', further⟩ := second w control log'
  exact ⟨log'', advances.trans further⟩

theorem serves_handle (handled : traffic.handle id = .ok later) : Serves traffic later := by
  intro w control log
  have stepped : System.handle ⟨{ w with traffic }, control, log⟩ id =
      .ok (System.record ⟨{ w with traffic := later }, control, log⟩
        (System.happened id traffic.connections[id]? later.connections[id]?)) := by
    simp only [System.handle, handled]
    rfl
  exact ⟨_, Advances.refl.handle stepped⟩

theorem serves_foldlM {α : Type} {f : Traffic → α → Except WaitFault Traffic}
    (serves : ∀ t a u, f t a = .ok u → Serves t u) {as : List α}
    (ran : as.foldlM f traffic = .ok later) : Serves traffic later := by
  induction as generalizing traffic with
  | nil =>
    obtain rfl := Except.ok.inj ran
    exact .refl traffic
  | cons a as ih =>
    rw [List.foldlM_cons] at ran
    obtain ⟨between, first, rest⟩ := ok_of_bind_ok ran
    exact (serves _ _ _ first).trans (ih rest)

/-- Handlers that go as far as they can. -/
theorem serves_settle (settled : traffic.settle = .ok later) : Serves traffic later :=
  serves_foldlM (fun _ _ _ ran => serves_foldlM (fun _ _ _ => serves_handle) ran) settled

/-! ## Taking over the inbox -/

theorem setIfInBounds_self {xs : Array α} {i : Nat} {x : α} (found : xs[i]? = some x) :
    xs.setIfInBounds i x = xs := by
  obtain ⟨within, rfl⟩ := Array.getElem?_eq_some_iff.mp found
  simp [Array.setIfInBounds, within]

/-- A world whose listener has the given inbox. -/
def withInbox (w : World) (id : Nat) (l : Listener) (inbox : List Nat) : World :=
  { w with traffic := setListener w.traffic id { l with inbox } }

/-- A world with more connections attached. -/
def attach (w : World) (ids : List Nat) : World :=
  { w with endpoints := w.endpoints ++ ids.map .connection }

theorem drained_busy (next : Drained) (endpoints : List Endpoint) : next.control endpoints ≠ .idle := by
  cases next <;> simp [Drained.control]

theorem advances_inbox {l : Listener} {ids fresh : List Nat} {next : Drained}
    (opened : w.listener = some id) (found : w.traffic.listeners[id]? = some l) (inbox : l.inbox = ids) :
    Advances ⟨w, .draining fresh next, log⟩ ⟨attach (withInbox w id l []) (fresh ++ ids),
      next.control (attach w (fresh ++ ids)).endpoints, log⟩ := by
  induction ids generalizing w l fresh with
  | nil =>
    have empty : System.inbox ⟨w, .draining fresh next, log⟩ = [] := by
      simp [System.inbox, inboxOf, opened, found, inbox]
    have same : withInbox w id l [] = w := by
      obtain ⟨contentType, closed, issued, _⟩ := l
      subst inbox
      simp [withInbox, setListener, setIfInBounds_self found]
    rw [same, List.append_nil]
    exact .once (congrArg Except.ok (drainStep_nil empty fresh next)) (drained_busy next _)
  | cons first rest ih =>
    have stepped : System.interpret ⟨w, .draining fresh next, log⟩ =
        .ok ⟨withInbox w id l rest, .draining (fresh ++ [first]) next, log⟩ :=
      congrArg Except.ok (drainStep_cons opened found inbox fresh next)
    have still : (withInbox w id l rest).traffic.listeners[id]? = some { l with inbox := rest } :=
      (getElem?_setListener found _ id).trans (if_pos rfl)
    have later := @ih (withInbox w id l rest) { l with inbox := rest } (fresh ++ [first]) opened
      still rfl
    refine (Advances.once stepped (by simp)).trans ?_
    simpa [attach, withInbox, setListener, Array.setIfInBounds_setIfInBounds] using later

/-- Taking over the inbox at once is a run of the steps that take over one endpoint each. -/
theorem advances_drain (w : World) (next : Drained) (log : List Event) :
    Advances ⟨w, .draining [] next, log⟩ ⟨w.drain, next.control w.drain.endpoints, log⟩ := by
  have nothing (empty : System.inbox ⟨w, .draining [] next, log⟩ = []) :
      Advances ⟨w, .draining [] next, log⟩ ⟨w, next.control w.endpoints, log⟩ := by
    have stepped := drainStep_nil empty [] next
    simp only [List.map_nil, List.append_nil] at stepped
    exact .once (congrArg Except.ok stepped) (drained_busy next _)
  unfold World.drain
  split
  next closed => exact nothing (by simp [System.inbox, inboxOf, closed])
  next id opened =>
    unfold Traffic.drain
    cases found : w.traffic.listeners[id]? with
    | none =>
      simp only [List.map_nil, List.append_nil]
      exact nothing (by simp [System.inbox, inboxOf, opened, found])
    | some l =>
      cases inbox : l.inbox with
      | nil =>
        simp only [inbox, List.isEmpty_nil, ↓reduceIte, List.map_nil, List.append_nil]
        exact nothing (by simp [System.inbox, inboxOf, opened, found, inbox])
      | cons first rest =>
        simp only [inbox, List.isEmpty_cons, Bool.false_eq_true, ↓reduceIte]
        exact advances_inbox opened found inbox

/-! ## Reading and writing -/

theorem completes_read (w : World) (log : List Event) :
    Completes ⟨w, .draining [] .read, log⟩ ⟨w.read.1, .idle, log⟩
      ((w.read.2.map some).mapError fun error => .failure (.os error)) :=
  ⟨advances_drain w .read log, rfl, rfl, rfl, rfl⟩

theorem completes_writeEach (value : UInt8) (endpoints : List Endpoint) (w : World) (log : List Event) :
    ∃ log', Completes ⟨w, .writing value endpoints, log⟩
      ⟨(w.writeEach value endpoints).1, .idle, log'⟩
      (((w.writeEach value endpoints).2.map fun _ => none).mapError fun error => .failure (.os error)) := by
  induction endpoints generalizing w log with
  | nil => exact ⟨log, .refl, rfl, rfl, rfl, rfl⟩
  | cons endpoint rest ih =>
    unfold World.writeEach
    cases written : w.writeByte value endpoint with
    | ok v =>
      obtain ⟨log', completes⟩ := ih v (((connection? endpoint).toList.map (.wrote · value)) ++ log)
      refine ⟨log', completes.after (.once ?_ (by simp))⟩
      simp only [System.interpret, System.writeStep, written]
      rfl
    | error error =>
      refine ⟨log, .refl, rfl, ?_, rfl, ?_⟩
      · simp only [System.interpret, System.writeStep, written]
        rfl
      · simp only [System.verdict, written]
        rfl

theorem completes_broadcast (w : World) (value : UInt8) (log : List Event) :
    ∃ log', Completes ⟨w, .draining [] (.broadcast value), log⟩ ⟨(w.broadcast value).1, .idle, log'⟩
      (((w.broadcast value).2.map fun _ => none).mapError fun error => .failure (.os error)) := by
  obtain ⟨log', completes⟩ := completes_writeEach value w.drain.endpoints w.drain log
  exact ⟨log', completes.after (advances_drain w (.broadcast value) log)⟩

/-! ## Awaiting a connection -/

theorem traffic_drain_waiters (t : Traffic) (id : Nat) : (t.drain id).1.waiters = t.waiters := by
  unfold Traffic.drain
  split
  · split <;> rfl
  · rfl

theorem drain_waiters (w : World) : w.drain.traffic.waiters = w.traffic.waiters := by
  cases opened : w.listener with
  | none => simp only [World.drain, opened]
  | some id => simp only [World.drain, opened, traffic_drain_waiters]

/-- A wait looks whether anybody is attached once it has taken over the inbox. -/
theorem advances_test (w : World) (again : Bool) (log : List Event) :
    Advances ⟨w, .draining [] (.await again), log⟩ ⟨w.drain, .testing again, log⟩ :=
  advances_drain w (.await again) log

theorem attaches_drain (attached : w.drain.endpoints ≠ []) (again : Bool) (log : List Event) :
    Attaches ⟨w, .draining [] (.await again), log⟩ ⟨w.drain, .idle, log⟩ :=
  ⟨advances_test w again log, rfl, by simp [System.interpret, System.goto, attached], rfl⟩

/-- Where nobody is attached, the interpreter waits for the release of the group. -/
theorem advances_wait (nobody : w.drain.endpoints = []) (log : List Event) :
    Advances ⟨w, .draining [] (.await false), log⟩ ⟨w.drain, .waiting, log⟩ :=
  (advances_test w false log).interpret (by simp [System.interpret, System.goto, nobody]) (by simp)

/-- A release lets it take over the inbox once more. -/
theorem advances_wake (released : w.traffic.waiters.isReleased Waiters.connection = .ok true)
    (log : List Event) : Advances ⟨w, .waiting, log⟩ ⟨w, .draining [] (.await true), log⟩ := by
  refine .once ?_ (by simp)
  simp only [System.interpret, released]
  rfl

/-- Arming the group unless it is armed takes a look at it, and then one more step or none. -/
theorem advances_rearm (counts : w.traffic.waiters = .counts p a rest) (next : Armed) (log : List Event) :
    ∃ traffic, w.traffic.rearm = .ok traffic ∧
      traffic.waiters.isReleased Waiters.connection = .ok false ∧
      Advances ⟨w, .counting next, log⟩ ⟨{ w with traffic }, next.control, log⟩ := by
  have busy : next.control ≠ .idle := by cases next <;> simp [Armed.control]
  cases a with
  | succ armed =>
    refine ⟨w.traffic, ?_, by rw [counts]; rfl, .once ?_ busy⟩
    · simp only [Traffic.rearm, counts, Waiters.counts_connection]
      rfl
    · simp only [System.interpret, counts, Waiters.counts_connection]
      rfl
  | zero =>
    have arming : Advances ⟨w, .counting next, log⟩ ⟨w, .arming next, log⟩ := by
      refine .once ?_ (by simp)
      simp only [System.interpret, counts, Waiters.counts_connection]
      rfl
    refine ⟨{ w.traffic with waiters := .counts p 1 rest }, ?_, rfl, arming.interpret ?_ busy⟩
    · simp only [Traffic.rearm, counts, Waiters.counts_connection, Waiters.counts_add_connection]
      rfl
    · simp only [System.interpret, counts, Waiters.counts_add_connection]
      rfl

/-- Where it attaches nobody then either, the group is armed, and the wait begins anew. -/
theorem advances_again (nobody : w.drain.endpoints = []) (counts : w.traffic.waiters = .counts p a rest)
    (log : List Event) : ∃ traffic, w.drain.traffic.rearm = .ok traffic ∧
      traffic.waiters.isReleased Waiters.connection = .ok false ∧
      Advances ⟨w, .draining [] (.await true), log⟩
        ⟨{ w.drain with traffic }, .draining [] (.await false), log⟩ := by
  have counting : Advances ⟨w, .draining [] (.await true), log⟩ ⟨w.drain, .counting .await, log⟩ :=
    (advances_test w true log).interpret (by simp [System.interpret, System.goto, nobody]) (by simp)
  obtain ⟨traffic, rearmed, armed, advances⟩ :=
    advances_rearm ((drain_waiters w).trans counts) .await log
  exact ⟨traffic, rearmed, armed, counting.trans advances⟩

/-- How a wait for a connection comes out: one is attached, or the interpreter is blocked. -/
def AwaitsFrom (s : System) (w : World) (found : Bool) (log : List Event) : Prop :=
  if found then Attaches s ⟨w, .idle, log⟩
  else Advances s ⟨w, .waiting, log⟩ ∧
    w.traffic.waiters.isReleased Waiters.connection = .ok false

/-- A round while the group is armed comes out at its first test or blocks. -/
theorem awaits_armed (armed : w.traffic.waiters.isReleased Waiters.connection = .ok false)
    (rounds : Nat) (log : List Event) :
    ∃ found, World.awaitRounds (rounds + 1) w = .ok (w.drain, found) ∧
      AwaitsFrom ⟨w, .draining [] (.await false), log⟩ w.drain found log := by
  have still : w.drain.traffic.waiters.isReleased Waiters.connection = .ok false := by
    rw [drain_waiters]
    exact armed
  by_cases nobody : w.drain.endpoints = []
  · refine ⟨false, ?_, advances_wait nobody log, still⟩
    simp [World.awaitRounds, nobody, still, pure, Except.pure, bind, Except.bind]
  · refine ⟨true, ?_, attaches_drain nobody false log⟩
    simp [World.awaitRounds, nobody, pure, Except.pure]

/-- A round whose wait is over at once finds a connection, or arms the group for the next. -/
theorem awaits_released (counts : w.traffic.waiters = .counts p 0 rest) (rounds : Nat) (log : List Event) :
    (∃ v, World.awaitRounds (rounds + 1) w = .ok (v, true) ∧
      Attaches ⟨w, .draining [] (.await false), log⟩ ⟨v, .idle, log⟩) ∨
    ∃ v, World.awaitRounds (rounds + 1) w = World.awaitRounds rounds v ∧
      v.traffic.waiters.isReleased Waiters.connection = .ok false ∧
      Advances ⟨w, .draining [] (.await false), log⟩ ⟨v, .draining [] (.await false), log⟩ := by
  by_cases first : w.drain.endpoints = []
  · have counts' : w.drain.traffic.waiters = .counts p 0 rest := (drain_waiters w).trans counts
    have released : w.drain.traffic.waiters.isReleased Waiters.connection = .ok true := by
      rw [counts']
      rfl
    have woken := (advances_wait first log).trans (advances_wake released log)
    by_cases second : w.drain.drain.endpoints = []
    · obtain ⟨traffic, rearmed, armed, again⟩ := advances_again second counts' log
      refine .inr ⟨{ w.drain.drain with traffic }, ?_, armed, woken.trans again⟩
      simp [World.awaitRounds, first, released, second, rearmed, bind, Except.bind]
    · refine .inl ⟨w.drain.drain, ?_, (attaches_drain second true log).after woken⟩
      simp [World.awaitRounds, first, released, second, pure, Except.pure, bind, Except.bind]
  · refine .inl ⟨w.drain, ?_, attaches_drain first false log⟩
    simp [World.awaitRounds, first, pure, Except.pure]

/-- Waiting for a connection is a run of the steps, and its second round finds the group armed. -/
theorem awaits_connection (counts : w.traffic.waiters = .counts p a rest) (log : List Event) :
    ∃ v found, w.awaitConnection = .ok (v, found) ∧
      AwaitsFrom ⟨w, .draining [] (.await false), log⟩ v found log := by
  cases a with
  | succ armed =>
    obtain ⟨found, ran, awaits⟩ := awaits_armed (w := w) (by rw [counts]; rfl) 1 log
    exact ⟨w.drain, found, ran, awaits⟩
  | zero =>
    rcases awaits_released counts 1 log with ⟨v, ran, attaches⟩ | ⟨v, same, armed, advances⟩
    · exact ⟨v, true, ran, attaches⟩
    · obtain ⟨found, ran, awaits⟩ := awaits_armed armed 0 log
      refine ⟨v.drain, found, same.trans ran, ?_⟩
      cases found with
      | true => exact Attaches.after awaits advances
      | false => exact ⟨advances.trans awaits.1, awaits.2⟩

/-! ## Completing responses -/

/-- Whatever is detached is completed, one response after the other. -/
theorem advances_finish (left : List Nat) (w : World) (log : List Event) :
    ∃ log', Advances ⟨w, .finishing left, log⟩
      ⟨{ w with traffic := left.foldl Traffic.finish w.traffic }, .finishing [], log'⟩ := by
  induction left generalizing w log with
  | nil => exact ⟨log, .refl⟩
  | cons id left ih =>
    obtain ⟨log', advances⟩ := ih { w with traffic := w.traffic.finish id } (.finished id :: log)
    exact ⟨log', (Advances.once rfl (by simp)).trans advances⟩

theorem foldl_finish (endpoints : List Endpoint) (t : Traffic) :
    endpoints.foldl (fun t endpoint =>
      match endpoint with
      | .connection id => t.finish id
      | _ => t) t = (endpoints.filterMap connection?).foldl Traffic.finish t := by
  induction endpoints generalizing t with
  | nil => rfl
  | cons endpoint rest ih => cases endpoint <;> exact ih _

theorem finishCycle_eq (w : World) : w.finishCycle = (do
    let traffic ← w.traffic.rearm
    let traffic ← ((w.endpoints.filterMap connection?).foldl Traffic.finish traffic).settle
    return { w with endpoints := [], traffic }) := by
  unfold World.finishCycle
  cases w.traffic.rearm with
  | error fault => rfl
  | ok traffic =>
    have folded := foldl_finish w.endpoints traffic
    exact congrArg (fun traffic : Traffic => (do
      let traffic ← traffic.settle
      return { w with endpoints := [], traffic } : Except WaitFault World)) folded

/-- The end of a cycle is a run of the steps, in which handlers go on once responses are complete. -/
theorem completes_finishCycle (counts : w.traffic.waiters = .counts p a rest)
    (cycled : w.finishCycle = .ok v) (log : List Event) :
    ∃ log', Completes (System.undertake ⟨w, .idle, log⟩ .finishCycle) ⟨v, .idle, log'⟩ (.ok none) := by
  rw [finishCycle_eq] at cycled
  obtain ⟨traffic, rearmed, cycled⟩ := ok_of_bind_ok cycled
  obtain ⟨settled, ran, cycled⟩ := ok_of_bind_ok cycled
  obtain rfl := Except.ok.inj cycled
  obtain ⟨traffic', rearmed', -, arming⟩ :=
    advances_rearm (w := { w with endpoints := [] }) counts
      (.finish (w.endpoints.filterMap connection?)) log
  obtain rfl := Except.ok.inj (rearmed.symm.trans rearmed')
  obtain ⟨log', finishing⟩ := advances_finish (w.endpoints.filterMap connection?)
    { w with endpoints := [], traffic } log
  obtain ⟨log'', serving⟩ := serves_settle ran { w with endpoints := [] } (.finishing []) log'
  exact ⟨log'', (arming.trans finishing).trans serving, rfl, rfl, rfl, rfl⟩

/-! ## Closing a listener -/

theorem advances_complete (id : Nat) (left : List Nat) (purpose : Purpose) (w : World)
    (log : List Event) :
    ∃ log', Advances ⟨w, .completing id left purpose, log⟩
      ⟨{ w with traffic := left.foldl Traffic.finish w.traffic }, .settling id purpose, log'⟩ := by
  induction left generalizing w log with
  | nil => exact ⟨log, .once rfl (by simp)⟩
  | cons first left ih =>
    obtain ⟨log', advances⟩ := ih { w with traffic := w.traffic.finish first } (.finished first :: log)
    exact ⟨log', (Advances.once rfl (by simp)).trans advances⟩

/-- A close turns clients away from then on and completes the responses of those who were let in. -/
theorem advances_shut {l : Listener} (found : w.traffic.listeners[id]? = some l)
    (opened : l.closed = false) (purpose : Purpose) (log : List Event) :
    ∃ log', Advances ⟨w, .shutting id purpose, log⟩
      ⟨{ w with traffic := l.issued.foldl Traffic.finish (setListener w.traffic id (sealed l)) },
        .settling id purpose, log'⟩ := by
  have shut : w.traffic.shut id = (setListener w.traffic id (sealed l), l.issued) := by
    simp only [Traffic.shut, found, setListener, sealed]
  have completing : Advances ⟨w, .shutting id purpose, log⟩
      ⟨{ w with traffic := setListener w.traffic id (sealed l) },
        .completing id l.issued purpose, log⟩ := by
    refine .once ?_ (by simp)
    simp only [System.interpret, System.shutStep, found, opened, Bool.false_eq_true, ↓reduceIte, shut]
    rfl
  obtain ⟨log', settling⟩ := advances_complete id l.issued purpose
    { w with traffic := setListener w.traffic id (sealed l) } log
  exact ⟨log', completing.trans settling⟩

/-- Once no connection is unanswered, a close has three more steps, and nothing is counted then. -/
theorem advances_settled (counts : w.traffic.waiters = .counts 1 a 0) (atMost : a ≤ 1) (id : Nat)
    (purpose : Purpose) (log : List Event) :
    w.traffic.waiters.doneIfPending Waiters.connection = .ok (decide (0 < a), .counts 1 0 0) ∧
      Advances ⟨w, .settling id purpose, log⟩
        ⟨{ w with traffic := { w.traffic with waiters := .counts 0 0 0 } }, purpose.control,
          .closed id :: log⟩ := by
  have busy : purpose.control ≠ .idle := by cases purpose <;> simp [Purpose.control]
  have disarming : Advances ⟨w, .settling id purpose, log⟩ ⟨w, .disarming id purpose, log⟩ := by
    refine .once ?_ (by simp)
    simp only [System.interpret, counts, Waiters.counts_isReleased_write]
    rfl
  have disarmed : a - 1 = 0 := Nat.sub_eq_zero_of_le atMost
  have released : w.traffic.waiters.doneIfPending Waiters.connection =
      .ok (decide (0 < a), .counts 1 0 0) := by
    rw [counts, Waiters.counts_doneIfPending, disarmed]
  have releasing : Advances ⟨w, .disarming id purpose, log⟩
      ⟨{ w with traffic := { w.traffic with waiters := .counts 1 0 0 } },
        .releasing id purpose, log⟩ := by
    refine .once ?_ (by simp)
    simp only [System.interpret, released]
    rfl
  refine ⟨released, (disarming.trans releasing).interpret ?_ busy⟩
  simp only [System.interpret, Waiters.counts_done_program]
  rfl

/-- A listener that is open, and that leaves nobody unanswered once it is closed and handlers have gone
as far as they can. -/
def Closable (t : Traffic) (id : Nat) : Prop :=
  ∃ l settled armed, t.listeners[id]? = some l ∧ l.closed = false ∧
    (l.issued.foldl Traffic.finish (setListener t id (sealed l))).settle = .ok settled ∧
    settled.waiters = .counts 1 armed 0 ∧ armed ≤ 1

/-- The close of a listener is a run of the steps, in which handlers go on while it waits. -/
theorem advances_close (closable : Closable w.traffic id) (purpose : Purpose) (log : List Event) :
    ∃ traffic log', w.traffic.closeListener id = .ok traffic ∧ traffic.waiters = .counts 0 0 0 ∧
      Advances ⟨w, .shutting id purpose, log⟩ ⟨{ w with traffic }, purpose.control, log'⟩ := by
  obtain ⟨l, settled, armed, found, opened, ran, counts, atMost⟩ := closable
  have shut : w.traffic.shut id = (setListener w.traffic id (sealed l), l.issued) := by
    simp only [Traffic.shut, found, setListener, sealed]
  obtain ⟨log', settling⟩ := advances_shut found opened purpose log
  obtain ⟨log'', serving⟩ := serves_settle ran w (.settling id purpose) log'
  obtain ⟨disarmed, closing⟩ := advances_settled (w := { w with traffic := settled }) counts atMost id
    purpose log''
  have disarmed : settled.waiters.doneIfPending Waiters.connection = _ := disarmed
  refine ⟨{ settled with waiters := .counts 0 0 0 }, _, ?_, rfl, (settling.trans serving).trans closing⟩
  simp only [Traffic.closeListener, found, opened, Bool.false_eq_true, ↓reduceIte, shut, ran,
    disarmed, Waiters.counts_done_program, bind, Except.bind]
  rfl

theorem advances_leave (closable : ∀ id, w.listener = some id → Closable w.traffic id)
    (purpose : Purpose) (log : List Event) :
    w.closeListener.2 = .ok () ∧
      (w.listener ≠ none → w.closeListener.1.traffic.waiters = .counts 0 0 0) ∧
      ∃ log', Advances (System.leave ⟨w, .idle, log⟩ purpose)
        ⟨w.closeListener.1, purpose.control, log'⟩ := by
  unfold World.closeListener System.leave
  cases listener : w.listener with
  | none => exact ⟨rfl, fun opened => absurd rfl opened, log, .refl⟩
  | some id =>
    obtain ⟨traffic, log', closed, counts, advances⟩ :=
      advances_close (w := { w with listener := none, endpoints := [] }) (closable id listener) purpose log
    have closed : w.traffic.closeListener id = .ok traffic := closed
    simp only [closed]
    exact ⟨trivial, fun _ => counts, log', advances⟩

/-! ## Opening a target -/

theorem completes_listen (counts : w.traffic.waiters = .counts p a rest) (type : Option String)
    (log : List Event) :
    ∃ traffic, w.traffic.openListener type = .ok (traffic, w.traffic.listeners.size) ∧
      Completes ⟨w, .holding type, log⟩ ⟨{ w with
        traffic, target := .http, endpoints := [], listener := some w.traffic.listeners.size },
        .idle, log⟩ (.ok none) := by
  have counting : Advances ⟨w, .holding type, log⟩ ⟨{ w with traffic := { w.traffic with
      waiters := .counts (p + 1) a rest } }, .counting (.listen type), log⟩ := by
    refine .once ?_ (by simp)
    simp only [System.interpret, counts, Waiters.counts_add_program]
    rfl
  have listened (waiters : Waiters) : Completes ⟨{ w with traffic := { w.traffic with waiters } },
      .listening type, log⟩ ⟨{ w with
        traffic := { w.traffic with
          waiters, listeners := w.traffic.listeners.push { contentType := type } }
        target := .http, endpoints := [], listener := some w.traffic.listeners.size }, .idle, log⟩
      (.ok none) :=
    ⟨.once rfl (by simp [System.goto]), rfl, rfl, rfl, rfl⟩
  cases a with
  | succ armed =>
    refine ⟨{ w.traffic with
      waiters := .counts (p + 1) (armed + 1) rest
      listeners := w.traffic.listeners.push { contentType := type } }, ?_,
      (listened _).after (counting.interpret ?_ (by simp))⟩
    · simp only [Traffic.openListener, counts, Waiters.counts_add_program]
      rfl
    · simp only [System.interpret, Waiters.counts_connection]
      rfl
  | zero =>
    have arming := counting.interpret (u := ⟨_, .arming (.listen type), log⟩) (by
      simp only [System.interpret, Waiters.counts_connection]
      rfl) (by simp)
    refine ⟨{ w.traffic with
      waiters := .counts (p + 1) 1 rest
      listeners := w.traffic.listeners.push { contentType := type } }, ?_,
      (listened _).after (arming.interpret rfl (by simp))⟩
    simp only [Traffic.openListener, counts, Waiters.counts_add_program]
    rfl

/-- What an operation stops for is not a group that was misused. -/
def Unmisused (result : Except Stop Unit) : Prop :=
  ∀ fault, result ≠ .error (.fault (.wait fault))

theorem bindStop_ne_wait {config : Config} {address : BindAddress} {stop : Stop}
    (refused : World.bindStop? config address = some stop) (fault : WaitFault) :
    stop ≠ .fault (.wait fault) := by
  unfold World.bindStop? at refused
  rintro rfl
  split at refused
  · simp at refused
  · split at refused
    · simp at refused
    · split at refused
      · simp at refused
      · split at refused <;> simp at refused

theorem unmisused_openFile (w : World) : Unmisused w.openFile.2 := by
  unfold World.openFile
  split <;> simp [Unmisused]

/-- Making a target active in one step. -/
theorem completes_enter_once {name : String}
    (entered : System.enterStep ⟨w, .entering name, log⟩ name = ⟨(w.enter name).1, .idle, log⟩) :
    Completes ⟨w, .entering name, log⟩ ⟨(w.enter name).1, .idle, log⟩
      ((w.enter name).2.map fun _ => none) :=
  ⟨.refl, rfl, congrArg Except.ok entered, rfl, rfl⟩

/-- Opening a listener is a run of the steps. -/
theorem completes_enter_network (counts : w.traffic.waiters = .counts p a rest) {name : String}
    (target : Target.ofName? name = some .http) (log : List Event) :
    Unmisused (w.enter name).2 ∧ Completes ⟨w, .entering name, log⟩ ⟨(w.enter name).1, .idle, log⟩
      ((w.enter name).2.map fun _ => none) := by
  cases address : BindAddress.parse? w.config.httpAddress with
  | none =>
    refine ⟨by simp [World.enter, World.openNetwork, target, address, Unmisused], completes_enter_once ?_⟩
    simp only [System.enterStep, World.enter, World.openNetwork, target, address]
    rfl
  | some parsed =>
    cases refused : World.bindStop? w.config parsed with
    | some stop =>
      have stopped : w.enter name = (w, .error stop) := by
        simp only [World.enter, World.openNetwork, target, address, refused]
      refine ⟨?_, completes_enter_once ?_⟩
      · intro fault same
        rw [stopped] at same
        exact bindStop_ne_wait refused fault (Except.error.inj same)
      · simp only [System.enterStep, target, address, refused, stopped, Option.isSome_some, ↓reduceIte]
        rfl
    | none =>
      have holding : Advances ⟨w, .entering name, log⟩
          ⟨w, .holding (MediaType.ofResource w.config.filePath), log⟩ := by
        refine .once ?_ (by simp)
        simp only [System.interpret, System.enterStep, target, address, refused, Option.isSome_none,
          Bool.false_eq_true, ↓reduceIte]
        rfl
      obtain ⟨traffic, opened, completes⟩ :=
        completes_listen counts (MediaType.ofResource w.config.filePath) log
      have entered : w.enter name = ({ w with
          traffic, target := .http, endpoints := [], listener := some w.traffic.listeners.size }, .ok ()) := by
        simp only [World.enter, World.openNetwork, target, address, refused, opened]
      rw [entered]
      exact ⟨by simp [Unmisused], completes.after holding⟩

/-- Making a target active is a run of the steps. -/
theorem completes_enter (counts : w.traffic.waiters = .counts p a rest) (name : String)
    (log : List Event) :
    Unmisused (w.enter name).2 ∧ Completes ⟨w, .entering name, log⟩ ⟨(w.enter name).1, .idle, log⟩
      ((w.enter name).2.map fun _ => none) := by
  have once := @completes_enter_once w log name
  cases target : Target.ofName? name with
  | none =>
    refine ⟨by simp [World.enter, target, Unmisused], once ?_⟩
    simp only [System.enterStep, World.enter, target]
    rfl
  | some target' =>
    cases target' with
    | std | tcp =>
      refine ⟨by simp [World.enter, target, Unmisused], once ?_⟩
      simp only [System.enterStep, World.enter, target]
    | file =>
      refine ⟨?_, once ?_⟩
      · simp only [World.enter, target]
        exact unmisused_openFile w
      · simp only [System.enterStep, World.enter, target]
    | http => exact completes_enter_network counts target log

/-- Switching to another target is a run of the steps, and misuses no group. -/
theorem completes_switch (counts : w.traffic.waiters = .counts p a rest)
    (closable : ∀ id, w.listener = some id → Closable w.traffic id) (name : String) (log : List Event) :
    Unmisused (w.switch name).2 ∧
      ∃ log', Completes (System.undertake ⟨w, .idle, log⟩ (.switch name))
        ⟨(w.switch name).1, .idle, log'⟩ ((w.switch name).2.map fun _ => none) := by
  unfold System.undertake World.switch
  by_cases network : w.target = .http
  · simp only [network, ↓reduceIte]
    obtain ⟨closed, counts', log', leaving⟩ := advances_leave closable (.switch name) log
    simp only [closed]
    obtain ⟨p', a', rest', counts⟩ : ∃ p a rest, w.closeListener.1.traffic.waiters = .counts p a rest := by
      cases listener : w.listener with
      | none =>
        refine ⟨p, a, rest, ?_⟩
        simp only [World.closeListener, listener]
        exact counts
      | some => exact ⟨0, 0, 0, counts' (by simp [listener])⟩
    obtain ⟨unmisused, completes⟩ := completes_enter counts name log'
    exact ⟨unmisused, log', completes.after leaving⟩
  · simp only [network, ↓reduceIte]
    obtain ⟨unmisused, completes⟩ := completes_enter counts name log
    exact ⟨unmisused, log, completes⟩

/-! ## The end -/

/-- The close of a world is a run of the steps where nothing holds the program any more. -/
theorem completes_close (closable : ∀ id, w.listener = some id → Closable w.traffic id)
    (counts : w.closeListener.1.traffic.waiters = .counts 0 a rest) (log : List Event) :
    w.close.2 = .ok () ∧
      ∃ log', Completes (System.undertake ⟨w, .idle, log⟩ .close) ⟨w.close.1, .idle, log'⟩ (.ok none) := by
  obtain ⟨closed, -, log', leaving⟩ := advances_leave closable .close log
  simp only [World.close, closed]
  refine ⟨trivial, log', leaving, rfl, ?_, rfl, rfl⟩
  simp only [System.interpret, Purpose.control, counts, Waiters.counts_isReleased_program]
  rfl

end TapeLang.Interleaving

import TapeLang.Proofs.Interleaving.Steps

/-!
What the three groups count. The program is held exactly from the hold of a listener that is being
opened until the close of that listener lets go of it; connections are awaited at most once, because
only the interpreter arms that group and only after it found it at zero; and the unanswered
connections are the handlers between their first step and their last. Since the counts are known, no
step of anybody misuses a group (`Tallied.step_ok`).
-/
namespace TapeLang.Interleaving

open Http (Connection Listener Reply Stage Traffic)
open Source (Target)

/-- Whether a listener is closed to new connections, if it is there. -/
def closedAt (t : Traffic) (listener : Nat) : Option Bool :=
  t.listeners[listener]?.map (·.closed)

/-- A listener that is there and not closed. -/
def IsOpen (t : Traffic) (listener : Nat) : Prop := closedAt t listener = some false

/-- Where the interpreter stands between one open listener and the next. -/
inductive Place where
  /-- at work on its endpoints, or not at work -/
  | free
  /-- no listener is held -/
  | away
  /-- the program is held for a listener that does not accept connections yet -/
  | opening
  | attaching (listener : Nat)
  | shutting (listener : Nat)
  /-- a listener is closed to new connections, and the program still held for it -/
  | closing
deriving DecidableEq

def Control.place : Control → Place
  | .counting (.listen _) | .arming (.listen _) | .listening _ => .opening
  | .attaching listener => .attaching listener
  | .shutting listener _ => .shutting listener
  | .completing .. | .settling .. | .disarming .. | .releasing .. => .closing
  | .entering _ | .holding _ | .ending => .away
  | _ => .free

/-- Whether a listener is started and not yet fully closed: the open one, or one on its way. -/
def isUp (listener : Option Nat) : Place → Bool
  | .free => listener.isSome
  | .away => false
  | _ => true

/-- Whether a listener is started and not yet fully closed. -/
def System.isUp (s : System) : Bool := Interleaving.isUp s.world.listener s.control.place

/-- The routing fits the place. -/
def Routed (w : World) : Place → Prop
  | .free => ∀ listener, w.listener = some listener → w.target = .http ∧ IsOpen w.traffic listener
  | .away | .opening | .closing => w.listener = none
  | .attaching listener | .shutting listener => w.listener = none ∧ IsOpen w.traffic listener

/-- Whether a handler is between its first step and its last. -/
def isCounted : Stage → Bool
  | .counting | .gone => false
  | _ => true

/-- The number of handlers between their first step and their last. -/
def unanswered (t : Traffic) : Nat := t.connections.toList.countP (isCounted ·.stage)

/-- The groups are at their counts. -/
structure Tallied (s : System) : Prop where
  routed : Routed s.world s.control.place
  counts : ∃ armed ≤ 1, s.world.traffic.waiters =
      .counts (if s.isUp then 1 else 0) armed (unanswered s.world.traffic) ∧
    ∀ next, s.control = .arming next → armed = 0

variable {s t : System} {traffic : Traffic} {id listener : Nat} {c : Connection} {p a w : Nat}
  {after : Control}

/-! ## Counting -/

/-- What changing one element does to the number of elements with a property. -/
theorem countP_modify (q : α → Bool) (f : α → α) {l : List α} {i : Nat} {x : α}
    (found : l[i]? = some x) :
    (l.modify i f).countP q + (if q x then 1 else 0) = l.countP q + (if q (f x) then 1 else 0) := by
  induction l generalizing i with
  | nil => simp at found
  | cons first rest ih =>
    cases i with
    | zero =>
      obtain rfl : first = x := by simpa using found
      simp only [List.modify_zero_cons, List.countP_cons]
      omega
    | succ i =>
      have later := ih (by simpa using found)
      simp only [List.modify_succ_cons, List.countP_cons]
      omega

/-- A change of one connection changes the count by what it does to its stage. -/
theorem unanswered_update {t : Traffic} (known : t.connections[id]? = some c)
    (f : Connection → Connection) :
    unanswered (t.update id f) + (if isCounted c.stage then 1 else 0) =
      unanswered t + (if isCounted (f c).stage then 1 else 0) := by
  have found : t.connections.toList[id]? = some c := by simpa using known
  simpa [unanswered, Traffic.update] using countP_modify (isCounted ·.stage) f found

theorem unanswered_update_of_same {t : Traffic} (f : Connection → Connection)
    (same : ∀ c, (f c).stage = c.stage) : unanswered (t.update id f) = unanswered t := by
  cases known : t.connections[id]? with
  | some c =>
    have changed := unanswered_update known f
    rw [same] at changed
    omega
  | none =>
    have beyond : t.connections.toList.length ≤ id := by simpa using known
    simp only [unanswered, Traffic.update, Array.toList_modify, List.modify_eq_self beyond]

theorem unanswered_pos {t : Traffic} (known : t.connections[id]? = some c)
    (counted : isCounted c.stage = true) : 0 < unanswered t := by
  have member : c ∈ t.connections.toList := List.mem_of_getElem? (by simpa using known)
  exact List.countP_pos_iff.mpr ⟨c, member, counted⟩

/-! ## Listeners that are open -/

theorem closedAt_setListener (found : traffic.listeners[listener]? = some l) (l' : Listener)
    (other : Nat) : closedAt (setListener traffic listener l') other =
      if listener = other then some l'.closed else closedAt traffic other := by
  rw [closedAt, getElem?_setListener found]
  split <;> rfl

/-- A change that neither opens nor closes a listener. -/
theorem closedAt_setListener_same (found : traffic.listeners[listener]? = some l) (l' : Listener)
    (closed : l'.closed = l.closed) (other : Nat) :
    closedAt (setListener traffic listener l') other = closedAt traffic other := by
  rw [closedAt_setListener found]
  by_cases same : listener = other
  · subst same
    simp [closedAt, found, closed]
  · rw [if_neg same]

/-- No handler opens or closes a listener. -/
theorem Handles.closedAt (handles : Handles traffic id c p a w later events) (listener : Nat) :
    closedAt later listener = closedAt traffic listener := by
  cases handles with
  | @register l stage found => exact closedAt_setListener_same found (enlisted l id) rfl listener
  | _ => rfl

theorem closedAt_push (t : Traffic) (l : Listener) (listener : Nat) :
    closedAt { t with listeners := t.listeners.push l } listener =
      if listener = t.listeners.size then some l.closed else closedAt t listener := by
  simp only [closedAt, Array.getElem?_push]
  split <;> rfl

/-! ## Routing -/

@[simp] theorem place_purpose (purpose : Purpose) : purpose.control.place = .away := by
  cases purpose <;> rfl

@[simp] theorem place_drained (next : Drained) (endpoints : List Endpoint) :
    (next.control endpoints).place = .free := by
  cases next <;> rfl

@[simp] theorem place_counting (next : Armed) :
    (Control.counting next).place = next.control.place := by
  cases next <;> rfl

@[simp] theorem place_arming (next : Armed) : (Control.arming next).place = next.control.place := by
  cases next <;> rfl

theorem purpose_ne_arming (purpose : Purpose) (next : Armed) : purpose.control ≠ .arming next := by
  cases purpose <;> simp [Purpose.control]

theorem drained_ne_arming (drained : Drained) (endpoints : List Endpoint) (next : Armed) :
    drained.control endpoints ≠ .arming next := by
  cases drained <;> simp [Drained.control]

theorem armed_ne_arming (armed next : Armed) : armed.control ≠ .arming next := by
  cases armed <;> simp [Armed.control]

theorem Routed.keeps {v w : World} {place : Place} (routed : Routed v place)
    (listener : w.listener = v.listener) (target : w.target = v.target)
    (kept : ∀ listener, IsOpen v.traffic listener → IsOpen w.traffic listener) : Routed w place := by
  cases place with
  | free =>
    intro id found
    rw [listener] at found
    rw [target]
    exact ⟨(routed id found).1, kept _ (routed id found).2⟩
  | away | opening | closing => exact listener.trans routed
  | attaching id | shutting id => exact ⟨listener.trans routed.1, kept _ routed.2⟩

/-- No listener is open while another target is active. -/
theorem Routed.unopened {v : World} (routed : Routed v .free) (away : v.target ≠ .http) :
    v.listener = none := by
  cases listener : v.listener with
  | none => rfl
  | some id => exact absurd (routed id listener).1 away

/-- Where only control moves, it keeps its place, or a target could not be made active. -/
theorem Moves.place (moves : Moves s a w after) (routed : Routed s.world s.control.place) :
    after.place = s.control.place ∨ s.control.place = .away ∧ after.place = .free := by
  cases moves with
  | stay => exact .inl rfl
  | found control | again control | wait control | woken control | written control | cycled control =>
    exact .inl (by rw [control]; rfl)
  | unarmed control | armed control => exact .inl (by rw [control]; simp)
  | unshut control shut =>
    rw [control] at routed
    obtain ⟨l, found, opened⟩ := Option.map_eq_some_iff.mp routed.2
    exact absurd (shut l found) (by simp [opened])
  | completed control | settled control => exact .inl (by rw [control]; rfl)
  | refused control => exact .inr ⟨by rw [control]; rfl, rfl⟩
  | opening control => exact .inl (by rw [control]; rfl)

/-- Control that leaves one target without one for another is where no listener is up. -/
theorem Routed.of_away {v w : World} (routed : Routed v .away) (listener : w.listener = v.listener) :
    Routed w .free ∧ isUp w.listener .free = isUp v.listener .away := by
  have none : w.listener = none := listener.trans routed
  refine ⟨?_, by simp [isUp, none]⟩
  intro id found
  rw [none] at found
  simp at found

/-! ## One step -/

theorem Tallied.of_counts (routed : Routed t.world t.control.place) (atMost : a ≤ 1)
    (waiters : t.world.traffic.waiters = .counts p a w) (held : (if t.isUp then 1 else 0) = p)
    (rest : unanswered t.world.traffic = w) (arming : ∀ next, t.control = .arming next → a = 0) :
    Tallied t :=
  ⟨routed, a, atMost, by rw [waiters, held, rest], arming⟩

/-- A step that leaves the groups, the open listener, and the number of unanswered connections. -/
theorem Tallied.keeps (tallied : Tallied s) (place : t.control.place = s.control.place)
    (listener : t.world.listener = s.world.listener) (target : t.world.target = s.world.target)
    (kept : ∀ listener, IsOpen s.world.traffic listener → IsOpen t.world.traffic listener)
    (waiters : t.world.traffic.waiters = s.world.traffic.waiters)
    (still : unanswered t.world.traffic = unanswered s.world.traffic)
    (arming : ∀ next, t.control = .arming next → s.control = .arming next) : Tallied t := by
  obtain ⟨routed, armed, atMost, counts, zero⟩ := tallied
  refine ⟨place ▸ routed.keeps listener target kept, armed, atMost, ?_, fun next at_ =>
    zero next (arming next at_)⟩
  rw [waiters, counts, still, System.isUp, System.isUp, listener, place]

theorem Tallied.moves (tallied : Tallied s)
    (waiters : s.world.traffic.waiters = .counts p a w) (moves : Moves s a w after) :
    Tallied (s.goto after) := by
  obtain ⟨routed, armed, atMost, counts, zero⟩ := tallied
  obtain ⟨-, rfl, -⟩ := Waiters.counts_inj (counts.symm.trans waiters)
  have arming : ∀ next, after = .arming next → armed = 0 := by
    intro next at_
    cases moves with
    | stay => exact zero next at_
    | unarmed control empty => exact empty
    | armed control => exact absurd at_ (armed_ne_arming _ _)
    | unshut control => exact absurd at_ (purpose_ne_arming _ _)
    | _ => simp at at_
  have ⟨routed', up⟩ : Routed s.world after.place ∧
      isUp s.world.listener after.place = isUp s.world.listener s.control.place := by
    rcases moves.place routed with same | ⟨away, free⟩
    · rw [same]
      exact ⟨routed, rfl⟩
    · rw [away] at routed ⊢
      rw [free]
      exact routed.of_away rfl
  refine ⟨routed', armed, atMost, ?_, arming⟩
  rw [System.isUp] at counts ⊢
  rwa [← up] at counts

/-- Connections are awaited only once, since the interpreter found that none were. -/
theorem Tallied.arm (tallied : Tallied s) (waiters : s.world.traffic.waiters = .counts p a w)
    (control : s.control = .arming next) :
    Tallied ((s.setWaiters (.counts p (a + 1) w)).goto next.control) := by
  obtain ⟨routed, armed, -, counts, zero⟩ := tallied
  obtain ⟨held, rfl, rest⟩ := Waiters.counts_inj (counts.symm.trans waiters)
  obtain rfl := zero next control
  have place : next.control.place = s.control.place := by rw [control]; simp
  refine .of_counts ?_ (Nat.le_refl 1) rfl ?_ rest fun other at_ => absurd at_ (armed_ne_arming _ _)
  · exact place ▸ routed
  · rw [← held]
    show (if isUp _ next.control.place then 1 else 0) = _
    rw [place]
    rfl

/-- The close of a listener lets go of the program, which was held for it. -/
theorem Tallied.release (tallied : Tallied s) {id : Nat}
    (waiters : s.world.traffic.waiters = .counts (p + 1) a w)
    (control : s.control = .releasing id purpose) :
    Tallied (((s.setWaiters (.counts p a w)).record [.closed id]).goto purpose.control) := by
  obtain ⟨routed, armed, atMost, counts, -⟩ := tallied
  obtain ⟨held, rfl, rest⟩ := Waiters.counts_inj (counts.symm.trans waiters)
  rw [System.isUp, control] at held
  rw [control] at routed
  refine .of_counts ?_ atMost rfl ?_ rest fun next at_ => absurd at_ (purpose_ne_arming _ _)
  · show Routed _ purpose.control.place
    rw [place_purpose]
    exact routed
  · have one : 1 = p + 1 := held
    show (if isUp _ purpose.control.place then 1 else 0) = p
    rw [place_purpose]
    simp only [isUp, Bool.false_eq_true, ↓reduceIte]
    omega

/-- Whatever the next step of the interpreter does, the groups are at their counts after it. -/
theorem Tallied.interprets (tallied : Tallied s) (waiters : s.world.traffic.waiters = .counts p a w)
    (interprets : Interprets s p a w t) : Tallied t := by
  have whole := tallied
  obtain ⟨routed, armed, atMost, counts, zero⟩ := tallied
  obtain ⟨held, rfl, rest⟩ := Waiters.counts_inj (counts.symm.trans waiters)
  cases interprets with
  | move moves => exact whole.moves waiters moves
  | @take fresh next l first rest id control opened found inbox =>
    have kept := closedAt_setListener_same found { l with inbox := rest } rfl
    exact whole.keeps (by rw [control]; rfl) rfl rfl (fun _ opened => (kept _).trans opened) rfl rfl
      (by simp [System.goto])
  | drained control empty =>
    exact whole.keeps (by rw [control]; exact place_drained _ _) rfl rfl (fun _ opened => opened) rfl rfl
      fun next at_ => absurd at_ (drained_ne_arming _ _ _)
  | arm control => exact whole.arm waiters control
  | write control =>
    exact whole.keeps (by rw [control]; rfl) rfl rfl (fun _ opened => opened) rfl
      (unanswered_update_of_same _ fun _ => rfl) (by simp [System.goto, System.record])
  | writeAway control | readAway control =>
    exact whole.keeps (by rw [control]; rfl) rfl rfl (fun _ opened => opened) rfl rfl
      (by simp [System.goto])
  | read control =>
    exact whole.keeps (by rw [control]; rfl) rfl rfl (fun _ opened => opened) rfl
      (unanswered_update_of_same _ fun _ => rfl) (by simp [System.goto])
  | finish control =>
    exact whole.keeps (by rw [control]; rfl) rfl rfl (fun _ opened => opened) rfl
      (unanswered_update_of_same _ fun _ => rfl) (by simp [System.goto])
  | shut control found opened =>
    have up : s.isUp = true := by rw [System.isUp, control]; rfl
    rw [control] at routed
    refine .of_counts routed.1 atMost waiters ?_ rest (by simp [System.goto])
    rw [← held, up]
    rfl
  | complete control =>
    exact whole.keeps (by rw [control]; rfl) rfl rfl (fun _ opened => opened) rfl
      (unanswered_update_of_same _ fun _ => rfl) (by simp [System.goto])
  | disarm control =>
    have up : s.isUp = true := by rw [System.isUp, control]; rfl
    rw [control] at routed
    refine .of_counts routed (by omega) rfl ?_ rest (by simp [System.goto])
    rw [← held, up]
    rfl
  | release control enough => exact whole.release (enough ▸ waiters) control
  | @enter name v control unattached =>
    rw [System.isUp, control] at held
    rw [control] at routed
    obtain ⟨free, up⟩ := routed.of_away
      (w := { v with traffic := s.world.traffic, listener := s.world.listener }) rfl
    refine .of_counts free atMost waiters ?_ rest (by simp)
    rw [← held]
    exact congrArg (fun up => if up = true then 1 else 0) up
  | hold control =>
    rw [System.isUp, control] at held
    rw [control] at routed
    refine .of_counts routed atMost rfl ?_ rest (by simp [System.goto])
    rw [← held]
    rfl
  | listen control =>
    rw [System.isUp, control] at held
    rw [control] at routed
    exact .of_counts ⟨routed, (closedAt_push _ _ _).trans (if_pos rfl)⟩ atMost waiters held rest
      (by simp [System.goto])
  | attach control =>
    rw [System.isUp, control] at held
    rw [control] at routed
    refine .of_counts ?_ atMost waiters held rest (by simp [System.attachStep])
    rintro listener found
    obtain rfl := Option.some.inj found
    exact ⟨rfl, routed.2⟩
  | ended control =>
    rw [System.isUp, control] at held
    rw [control] at routed
    obtain ⟨free, up⟩ := routed.of_away (w := s.endStep.world) rfl
    refine .of_counts free atMost waiters ?_ rest (by simp [System.endStep])
    rw [← held]
    exact congrArg (fun up => if up = true then 1 else 0) up

/-- A step of a handler counts it in or out, releases an awaited connection, or does neither. -/
theorem Handles.counts (handles : Handles traffic id c p a w later events)
    (known : traffic.connections[id]? = some c) (waiters : traffic.waiters = .counts p a w)
    (rest : unanswered traffic = w) :
    ∃ armed ≤ a, later.waiters = .counts p armed (unanswered later) := by
  have moved (f : Connection → Connection) :
      unanswered (traffic.update id f) + (if isCounted c.stage then 1 else 0) =
        w + (if isCounted (f c).stage then 1 else 0) := rest ▸ unanswered_update known f
  have kept (f : Connection → Connection) (same : isCounted (f c).stage = isCounted c.stage) :
      traffic.waiters = .counts p a (unanswered (traffic.update id f)) := by
    have changed := moved f
    rw [same] at changed
    rw [waiters, Nat.add_right_cancel changed]
  cases handles with
  | stay => exact ⟨a, Nat.le_refl a, rest ▸ waiters⟩
  | count stage =>
    have changed := moved ({ · with stage := .registering })
    simp only [stage, isCounted, Bool.false_eq_true, ↓reduceIte] at changed
    exact ⟨a, Nat.le_refl a, congrArg (Waiters.counts p a) changed.symm⟩
  | reject stage =>
    exact ⟨a, Nat.le_refl a, kept ({ · with stage := .refusing }) (by simp [stage, isCounted])⟩
  | register stage =>
    exact ⟨a, Nat.le_refl a, kept ({ · with stage := .releasing }) (by simp [stage, isCounted])⟩
  | release stage =>
    have changed := moved ({ · with stage := .waiting })
    simp only [stage, isCounted, ↓reduceIte, Nat.add_right_cancel_iff] at changed
    exact ⟨a - 1, Nat.sub_le a 1, congrArg (Waiters.counts p (a - 1)) changed.symm⟩
  | proceed stage =>
    exact ⟨a, Nat.le_refl a, kept ({ · with stage := .answering }) (by simp [stage, isCounted])⟩
  | answer stage | refuse stage =>
    exact ⟨a, Nat.le_refl a, kept (fun c => { c with reply := some _, stage := .leaving })
      (by simp [stage, isCounted])⟩
  | @leave left stage counted =>
    have changed := moved ({ · with stage := .gone })
    simp only [stage, isCounted, ↓reduceIte, counted, Bool.false_eq_true, Nat.add_zero,
      Nat.add_right_cancel_iff] at changed
    exact ⟨a, Nat.le_refl a, congrArg (Waiters.counts p a) changed.symm⟩

theorem Tallied.handles (tallied : Tallied s) (waiters : s.world.traffic.waiters = .counts p a w)
    (known : s.world.traffic.connections[id]? = some c)
    (handles : Handles s.world.traffic id c p a w traffic events) :
    Tallied ((s.setTraffic traffic).record events) := by
  obtain ⟨routed, armed, atMost, counts, zero⟩ := tallied
  obtain ⟨held, rfl, rest⟩ := Waiters.counts_inj (counts.symm.trans waiters)
  obtain ⟨left, fewer, after⟩ := handles.counts known waiters rest
  refine .of_counts (routed.keeps rfl rfl fun _ opened => (handles.closedAt _).trans opened)
    (Nat.le_trans fewer atMost) after held rfl ?_
  intro next at_
  exact Nat.le_zero.mp (zero next at_ ▸ fewer)

theorem Tallied.arrive (tallied : Tallied s) (listener : Nat) (body : List UInt8) :
    Tallied (s.setTraffic (s.world.traffic.arrive listener body)) := by
  refine tallied.keeps rfl rfl rfl (fun _ opened => opened) rfl ?_ fun next at_ => at_
  simp [System.setTraffic, Traffic.arrive, unanswered, isCounted]

theorem Tallied.leave (tallied : Tallied s) (idle : s.control = .idle) (purpose : Purpose) :
    Tallied (s.leave purpose) := by
  obtain ⟨routed, armed, atMost, counts, -⟩ := tallied
  rw [System.isUp, idle] at counts
  rw [idle] at routed
  cases listener : s.world.listener with
  | none =>
    have away : (s.leave purpose).control = purpose.control := by
      simp only [System.leave, listener]
    refine .of_counts ?_ atMost counts ?_ rfl ?_
    · rw [away, place_purpose]
      rfl
    · rw [System.isUp, away, place_purpose, listener]
      rfl
    · rw [away]
      exact fun next at_ => absurd at_ (purpose_ne_arming _ _)
  | some id =>
    have shuts : (s.leave purpose).control = .shutting id purpose := by
      simp only [System.leave, listener]
    refine .of_counts ?_ atMost counts ?_ rfl ?_
    · rw [shuts]
      exact ⟨rfl, (routed id listener).2⟩
    · rw [System.isUp, shuts, listener]
      rfl
    · simp [shuts]

theorem Tallied.undertake (tallied : Tallied s) (idle : s.control = .idle) (operation : Operation) :
    Tallied (s.undertake operation) := by
  cases operation with
  | awaitConnection | broadcast | read | finishCycle =>
    exact tallied.keeps (by rw [idle]; rfl) rfl rfl (fun _ opened => opened) rfl rfl
      (by simp [System.undertake, System.goto])
  | close => exact tallied.leave idle .close
  | switch name =>
    unfold System.undertake
    dsimp only
    split
    · exact tallied.leave idle (.switch name)
    next away =>
      obtain ⟨routed, armed, atMost, counts, -⟩ := tallied
      rw [System.isUp, idle] at counts
      rw [idle] at routed
      have none := routed.unopened away
      refine .of_counts none atMost counts ?_ rfl (by simp [System.goto])
      rw [none]
      rfl

/-! ## Runs -/

/-- What a step of anybody can do where the groups are at their counts; it misuses none of them. -/
theorem Tallied.step_cases (tallied : Tallied s) (action : Action) :
    ∃ armed ≤ 1, ∃ t, s.world.traffic.waiters =
        .counts (if s.isUp then 1 else 0) armed (unanswered s.world.traffic) ∧
      s.step action = .ok t ∧
      Steps s (if s.isUp then 1 else 0) armed (unanswered s.world.traffic) action t := by
  obtain ⟨routed, armed, atMost, counts, zero⟩ := tallied
  have counted : ∀ (id : Nat) (c : Connection), s.world.traffic.connections[id]? = some c →
      c.stage = .leaving → 0 < unanswered s.world.traffic := by
    intro id c known stage
    exact unanswered_pos known (by rw [stage]; rfl)
  have held : ∀ id purpose, s.control = .releasing id purpose → 0 < if s.isUp then 1 else 0 := by
    intro id purpose control
    rw [System.isUp, control]
    exact Nat.one_pos
  obtain ⟨t, stepped, steps⟩ := Interleaving.step_cases counts counted held action
  exact ⟨armed, atMost, t, counts, stepped, steps⟩

theorem Tallied.steps (tallied : Tallied s) (waiters : s.world.traffic.waiters = .counts p a w)
    (steps : Steps s p a w action t) : Tallied t := by
  cases steps with
  | arrive => exact tallied.arrive _ _
  | handle known handles => exact tallied.handles waiters known handles
  | interpret interprets => exact tallied.interprets waiters interprets
  | undertake idle => exact tallied.undertake idle _
  | unknown | busy => exact tallied

theorem tallied_initial : Tallied (initial console session files config) :=
  .of_counts (p := 0) (a := 0) (w := 0) (by rintro id found; simp [initial] at found) (by omega) rfl rfl
    rfl (by simp [initial])

/-- In every reachable state the groups are at their counts. -/
theorem Reachable.tallied (reachable : Reachable s) : Tallied s := by
  induction reachable with
  | initial => exact tallied_initial
  | step _ stepped ih =>
    obtain ⟨armed, -, t, counts, stepped', steps⟩ := ih.step_cases _
    obtain rfl := Except.ok.inj (stepped.symm.trans stepped')
    exact ih.steps counts steps

/-- What holds at first, and after a step where it held before, holds in every reachable state. -/
theorem Reachable.invariant {Holds : System → Prop}
    (start : ∀ console session files config, Holds (Interleaving.initial console session files config))
    (step : ∀ {s t : System} {p a w : Nat} {action : Action}, Reachable s → a ≤ 1 →
      s.world.traffic.waiters = .counts p a w → unanswered s.world.traffic = w →
      Steps s p a w action t → Holds s → Holds t)
    (reachable : Reachable s) : Holds s := by
  induction reachable with
  | initial => exact start _ _ _ _
  | step reached stepped ih =>
    obtain ⟨armed, atMost, t, counts, stepped', steps⟩ := reached.tallied.step_cases _
    obtain rfl := Except.ok.inj (stepped.symm.trans stepped')
    exact step reached atMost counts rfl steps ih

end TapeLang.Interleaving

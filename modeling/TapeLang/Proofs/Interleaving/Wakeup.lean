import TapeLang.Proofs.Interleaving.Tally

/-!
No release is lost. Between taking over the inbox and blocking, the interpreter adds nothing to the
group of awaited connections, so if that group is still armed, nobody has released it since the inbox
was last found empty; and a handler that has put its connection there and not released the group yet
is still about to. `no_lost_wakeup` says so of every reachable state, and that the release lets the
interpreter through.
-/
namespace TapeLang.Interleaving

open Http (Connection Listener Reply Stage Traffic)

/-- The interpreter is blocked in its wait for a connection. -/
def System.IsBlocked (s : System) : Prop :=
  s.control = .waiting ∧ s.world.traffic.waiters.isReleased Waiters.connection = .ok false

/-- The handlers of these connections have registered and are about to release whoever awaits a
connection. -/
def Owed (t : Traffic) (inbox : List Nat) : Prop :=
  ∀ id ∈ inbox, ∃ c, t.connections[id]? = some c ∧ c.stage = .releasing

/-- The inbox was found empty, and no endpoint has been attached since. -/
def Control.isHeedless : Control → Bool
  | .testing false | .waiting => true
  | _ => false

/-- Until the interpreter blocks, and while it does, an armed group is going to be released. -/
def Awaited (s : System) : Prop :=
  s.control.isHeedless = true →
    s.world.traffic.waiters.isReleased Waiters.connection = .ok false → Owed s.world.traffic s.inbox

variable {s t : System} {traffic later : Traffic} {id : Nat} {c : Connection} {p a w : Nat}
  {after : Control}

/-! ## Inboxes -/

theorem inboxOf_found (found : traffic.listeners[other]? = some l) :
    inboxOf traffic (some other) = l.inbox := by
  simp only [inboxOf, Option.bind_some, found]

theorem inboxOf_setListener (found : traffic.listeners[other]? = some l) (l' : Listener)
    (listener : Option Nat) :
    inboxOf (setListener traffic other l') listener =
      if listener = some other then l'.inbox else inboxOf traffic listener := by
  cases listener with
  | none => simp [inboxOf]
  | some own =>
    simp only [inboxOf, Option.bind_some, getElem?_setListener found, Option.some.injEq]
    by_cases same : other = own
    · rw [if_pos same, if_pos same.symm]
    · rw [if_neg same, if_neg (Ne.symm same)]

/-- A step of a handler leaves an inbox, or registers its connection there. -/
theorem Handles.inbox (handles : Handles traffic id c p a w later events)
    (known : traffic.connections[id]? = some c) (listener : Option Nat) :
    inboxOf later listener = inboxOf traffic listener ∨
      c.stage = .registering ∧ inboxOf later listener = inboxOf traffic listener ++ [id] ∧
        later.connections[id]? = some { c with stage := .releasing } := by
  cases handles with
  | @register l stage found opened =>
    have put : inboxOf ((setListener traffic c.listener (enlisted l id)).setStage id .releasing) listener = _ :=
      inboxOf_setListener found (enlisted l id) listener
    by_cases own : listener = some c.listener
    · subst own
      rw [put, if_pos rfl, inboxOf_found found]
      exact .inr ⟨stage, rfl, getElem?_update_self known _⟩
    · exact .inl (put.trans (if_neg own))
  | _ => exact .inl rfl

/-- A step of a handler leaves every other connection. -/
theorem Handles.others (handles : Handles traffic id c p a w later events) {other : Nat}
    (apart : other ≠ id) : later.connections[other]? = traffic.connections[other]? := by
  have untouched (t : Traffic) (f : Connection → Connection) :
      (t.update id f).connections[other]? = t.connections[other]? := by
    rw [getElem?_update, if_neg (Ne.symm apart)]
  cases handles with
  | stay => rfl
  | _ => exact untouched _ _

/-- What the step does that releases whoever awaits a connection. -/
theorem Handles.of_releasing (handles : Handles traffic id c p a w later events)
    (stage : c.stage = .releasing) :
    later = { traffic with waiters := .counts p (a - 1) w }.setStage id .waiting := by
  cases handles with
  | release => rfl
  | stay blocked => simp [stage] at blocked
  | count other | reject other | register other | proceed other | answer other | refuse other
  | leave other => simp [stage] at other

/-! ## One step -/

/-- A step of a handler that is not about to release takes nobody's release away. -/
theorem Handles.owed (handles : Handles traffic id c p a w later events)
    (known : traffic.connections[id]? = some c) (other : c.stage ≠ .releasing)
    (owed : Owed traffic (inboxOf traffic listener)) : Owed later (inboxOf later listener) := by
  have still : ∀ x ∈ inboxOf traffic listener, ∃ c, later.connections[x]? = some c ∧
      c.stage = .releasing := by
    intro x queued
    obtain ⟨c', known', stage⟩ := owed x queued
    have apart : x ≠ id := by
      rintro rfl
      obtain rfl := Option.some.inj (known.symm.trans known')
      exact other stage
    exact ⟨c', (handles.others apart).trans known', stage⟩
  intro x queued
  rcases handles.inbox known listener with same | ⟨-, more, after⟩
  · exact still x (same ▸ queued)
  · rw [more, List.mem_append, List.mem_singleton] at queued
    rcases queued with earlier | rfl
    · exact still x earlier
    · exact ⟨_, after, rfl⟩

theorem Awaited.handles (awaited : Awaited s) (atMost : a ≤ 1)
    (waiters : s.world.traffic.waiters = .counts p a w)
    (known : s.world.traffic.connections[id]? = some c) (rest : unanswered s.world.traffic = w)
    (handles : Handles s.world.traffic id c p a w traffic events) :
    Awaited ((s.setTraffic traffic).record events) := by
  intro heedless armed
  obtain ⟨left, fewer, after⟩ := handles.counts known waiters rest
  have pending : left ≠ 0 := by
    rintro rfl
    simp [System.record, System.setTraffic, after, Waiters.counts_isReleased_connection] at armed
  have releasing : c.stage ≠ .releasing := by
    intro stage
    rw [handles.of_releasing stage] at after
    obtain ⟨-, less, -⟩ := Waiters.counts_inj after
    omega
  have before : a ≠ 0 := by omega
  apply handles.owed known releasing
  apply awaited heedless
  rw [waiters, Waiters.counts_isReleased_connection, beq_eq_false_iff_ne.mpr before]

/-- Where the inbox is heeded, nothing is owed. -/
theorem Awaited.of_heedful (heedful : s.control.isHeedless = false) : Awaited s := by
  intro heedless
  simp [heedful] at heedless

theorem heedful_purpose (purpose : Purpose) : purpose.control.isHeedless = false := by
  cases purpose <;> rfl

theorem heedful_armed (next : Armed) : next.control.isHeedless = false := by
  cases next <;> rfl

theorem Awaited.moves (awaited : Awaited s) (moves : Moves s a w after) : Awaited (s.goto after) := by
  cases moves with
  | stay => exact awaited
  | wait control =>
    intro _ armed
    exact awaited (by rw [control]; rfl) armed
  | armed => exact .of_heedful (heedful_armed _)
  | unshut => exact .of_heedful (heedful_purpose _)
  | _ => exact .of_heedful rfl

theorem Awaited.interprets (awaited : Awaited s) (interprets : Interprets s p a w t) : Awaited t := by
  cases interprets with
  | move moves => exact awaited.moves moves
  | drained control empty =>
    -- the inbox was just found empty, so nobody is owed a release
    intro _ _ id queued
    change id ∈ s.inbox at queued
    simp [empty] at queued
  | arm => exact .of_heedful (heedful_armed _)
  | release => exact .of_heedful (heedful_purpose _)
  | _ => exact .of_heedful rfl

theorem Awaited.arrive (awaited : Awaited s) (listener : Nat) (body : List UInt8) :
    Awaited (s.setTraffic (s.world.traffic.arrive listener body)) := by
  intro heedless armed id queued
  obtain ⟨c, known, stage⟩ := awaited heedless armed id queued
  exact ⟨c, getElem?_arrive known listener body, stage⟩

theorem Awaited.undertake (operation : Operation) : Awaited (s.undertake operation) := by
  apply Awaited.of_heedful
  have left (purpose : Purpose) : (s.leave purpose).control.isHeedless = false := by
    unfold System.leave
    cases s.world.listener with
    | none => exact heedful_purpose purpose
    | some => rfl
  cases operation with
  | awaitConnection | broadcast | read | finishCycle => rfl
  | close => exact left .close
  | switch name =>
    unfold System.undertake
    dsimp only
    split
    · exact left (.switch name)
    · rfl

theorem Awaited.steps (awaited : Awaited s) (atMost : a ≤ 1)
    (waiters : s.world.traffic.waiters = .counts p a w) (rest : unanswered s.world.traffic = w)
    (steps : Steps s p a w action t) : Awaited t := by
  cases steps with
  | arrive => exact awaited.arrive _ _
  | handle known handles => exact awaited.handles atMost waiters known rest handles
  | interpret interprets => exact awaited.interprets interprets
  | undertake => exact .undertake _
  | unknown | busy => exact awaited

/-! ## Runs -/

theorem Reachable.awaited (reachable : Reachable s) : Awaited s := by
  refine reachable.invariant (fun console session files config => .of_heedful rfl) ?_
  intro s t p a w action _ atMost waiters rest steps awaited
  exact awaited.steps atMost waiters rest steps

/-- After its release the interpreter is not blocked. -/
theorem Tallied.released (tallied : Tallied s)
    (known : s.world.traffic.connections[id]? = some c) (stage : c.stage = .releasing) :
    ∃ t, s.step (.handle id) = .ok t ∧ ¬ t.IsBlocked := by
  obtain ⟨armed, atMost, t, -, stepped, steps⟩ := tallied.step_cases (.handle id)
  refine ⟨t, stepped, ?_⟩
  rintro ⟨-, still⟩
  cases steps with
  | unknown unknown => simp [known] at unknown
  | handle known' handles =>
    obtain rfl := Option.some.inj (known.symm.trans known')
    obtain rfl := handles.of_releasing stage
    have through : armed - 1 = 0 := by omega
    simp [System.record, System.setTraffic, Traffic.setStage, Traffic.update, through,
      Waiters.counts_isReleased_connection] at still

/-- Whenever the interpreter is blocked in its wait for a connection while registered connections are
in the inbox, each of their handlers is about to release it, and is able to. -/
theorem no_lost_wakeup (reachable : Reachable s) (blocked : s.IsBlocked) (queued : s.inbox ≠ []) :
    ∃ id ∈ s.inbox, ∃ c t, s.world.traffic.connections[id]? = some c ∧ c.stage = .releasing ∧
      s.step (.handle id) = .ok t ∧ ¬ t.IsBlocked := by
  obtain ⟨id, rest, inbox⟩ := List.exists_cons_of_ne_nil queued
  have first : id ∈ s.inbox := by simp [inbox]
  obtain ⟨control, armed⟩ := blocked
  obtain ⟨c, known, stage⟩ := reachable.awaited (by rw [control]; rfl) armed id first
  obtain ⟨t, stepped, through⟩ := reachable.tallied.released known stage
  exact ⟨id, first, c, t, known, stage, stepped, through⟩

/-- The interpreter opens a listener and awaits a connection, and one registers meanwhile. -/
def lateRegistration : List Action :=
  .begin (.switch "http") :: List.replicate 6 .interpret ++
    .begin .awaitConnection :: List.replicate 2 .interpret ++ [.arrive 0 [], .handle 0, .handle 0]

/-- The state that `lateRegistration` leads to. -/
def registeredLate : System where
  world :=
    { target := .http, endpoints := [], listener := some 0
      traffic :=
        { waiters := .counts 1 1 1
          listeners := #[{ contentType := MediaType.ofResource "io.txt", issued := [0], inbox := [0] }]
          connections := #[{ listener := 0, input := [], stage := .releasing }] } }
  control := .waiting
  log := [.registered 0]

set_option maxRecDepth 1000 in
theorem lateRegistration_ran :
    (initial {} none {} {}).run lateRegistration = .ok registeredLate := by
  rfl

theorem no_lost_wakeup_late_registration :
    Reachable registeredLate ∧ registeredLate.IsBlocked ∧ registeredLate.inbox ≠ [] ∧
      ∃ id ∈ registeredLate.inbox, ∃ c t, registeredLate.world.traffic.connections[id]? = some c ∧
        c.stage = .releasing ∧ registeredLate.step (.handle id) = .ok t ∧ ¬ t.IsBlocked := by
  have reachable : Reachable registeredLate := Reachable.initial.run lateRegistration_ran
  have blocked : registeredLate.IsBlocked := ⟨rfl, rfl⟩
  have queued : registeredLate.inbox ≠ [] := by decide
  exact ⟨reachable, blocked, queued, no_lost_wakeup reachable blocked queued⟩

end TapeLang.Interleaving

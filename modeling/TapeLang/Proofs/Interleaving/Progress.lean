import TapeLang.Proofs.Interleaving.Accounting

/-!
Handlers get on by themselves. Each step of a handler brings it closer to its end, unless it waits for
the interpreter to complete its response (`Reachable.nearer`); so the bounded number of steps that a
handler is given takes it to its end while a close waits for it.
-/
namespace TapeLang.Interleaving

open Http (Connection Listener Reply Stage Traffic)

/-- The most steps that a handler has left. -/
def remaining : Stage → Nat
  | .counting => 6
  | .registering => 5
  | .releasing => 4
  | .waiting => 3
  | .answering | .refusing => 2
  | .leaving => 1
  | .gone => 0

/-- Connections are registered with listeners that are there. -/
def Hosted (t : Traffic) : Prop :=
  ∀ id listener stage, RegisteredWith t id listener stage → closedAt t listener ≠ none

/-- The handler of a connection is gone. -/
def Gone (t : Traffic) (id : Nat) : Prop := ∃ c, t.connections[id]? = some c ∧ c.stage = .gone

/-- Handlers, and nobody else, took steps between two reachable states. -/
structure Handled (s t : System) : Prop where
  reachable : Reachable t
  world : t.world = { s.world with traffic := t.world.traffic }
  control : t.control = s.control
  size : t.world.traffic.connections.size = s.world.traffic.connections.size
  gone : ∀ id, Gone s.world.traffic id → Gone t.world.traffic id

variable {s t u : System} {traffic later : Traffic} {id other listener : Nat} {c : Connection}
  {p a w : Nat} {after : Control} {log events : List Event}

/-! ## Listeners stay -/

theorem Hosted.keeps (hosted : Hosted traffic)
    (closed : ∀ listener, closedAt traffic listener ≠ none → closedAt later listener ≠ none)
    (registered : ∀ id listener stage, RegisteredWith later id listener stage →
      RegisteredWith traffic id listener stage) : Hosted later := by
  intro id listener stage now
  exact closed listener (hosted id listener stage (registered id listener stage now))

theorem Hosted.handles (hosted : Hosted traffic)
    (handles : Handles traffic other c p a w later events)
    (known : traffic.connections[other]? = some c) : Hosted later := by
  intro id listener stage registered
  rw [handles.closedAt]
  rcases registered.of_handles handles known with opened | ⟨before, registered, -⟩
  · exact fun missing => absurd (opened.symm.trans missing) (by simp)
  · exact hosted id listener before registered

/-- A listener that changes is still there. -/
theorem Hosted.setListener (hosted : Hosted traffic)
    (found : traffic.listeners[other]? = some l) (l' : Listener) :
    Hosted (setListener traffic other l') := by
  refine hosted.keeps ?_ fun _ _ _ registered => registered
  intro listener known
  rw [closedAt_setListener found]
  split
  · simp
  · exact known

theorem Hosted.interprets (hosted : Hosted s.world.traffic) (interprets : Interprets s p a w t) :
    Hosted t.world.traffic := by
  cases interprets with
  | write control | read control | finish control | complete control =>
    refine hosted.keeps (fun _ known => known) ?_
    intro id listener stage registered
    exact registered.of_update fun _ => ⟨rfl, rfl, rfl⟩
  | take control opened found inbox => exact hosted.setListener found _
  | shut control found opened => exact hosted.setListener found _
  | listen control =>
    refine hosted.keeps ?_ fun _ _ _ registered => registered
    intro listener known
    show closedAt { s.world.traffic with listeners := _ } listener ≠ none
    rw [closedAt_push]
    split
    · simp
    · exact known
  | _ => exact hosted

theorem Reachable.hosted (reachable : Reachable s) : Hosted s.world.traffic := by
  refine @Reachable.invariant s (fun s => Hosted s.world.traffic) ?_ ?_ reachable
  · rintro console session files config id listener stage ⟨c, known, -⟩
    simp [Interleaving.initial] at known
  · intro s t p a w action reached _ _ _ steps hosted
    cases steps with
    | arrive =>
      refine hosted.keeps (fun _ known => known) ?_
      intro id listener stage registered
      exact registered.of_arrive
    | handle known handles => exact hosted.handles handles known
    | interpret interprets => exact hosted.interprets interprets
    | @undertake operation idle =>
      rw [(undertake_traffic s operation).1]
      exact hosted
    | unknown | busy => exact hosted

/-! ## Handlers get on -/

/-- A handler that does not wait for the interpreter gets on by its next step. -/
theorem Reachable.nearer (reachable : Reachable s)
    (known : s.world.traffic.connections[id]? = some c)
    (unblocked : c.stage = .waiting → c.finished = true) :
    ∃ t c', s.step (.handle id) = .ok t ∧ t.world.traffic.connections[id]? = some c' ∧
      remaining c'.stage ≤ remaining c.stage - 1 := by
  obtain ⟨armed, -, t, -, stepped, steps⟩ := reachable.tallied.step_cases (.handle id)
  cases steps with
  | unknown unknown => simp [known] at unknown
  | handle known' handles =>
    obtain rfl := Option.some.inj (known.symm.trans known')
    cases handles with
    | stay blocked =>
      rcases blocked with gone | ⟨waiting, incomplete⟩ | ⟨answering, missing⟩
      · exact ⟨_, c, stepped, known, by simp [gone, remaining]⟩
      · simp [unblocked waiting] at incomplete
      · have hosted := reachable.hosted id c.listener .answering
          ⟨c, known, rfl, answering, by rw [verdict, answering]⟩
        simp [closedAt, missing] at hosted
    | count stage | reject stage | register stage | release stage | proceed stage | answer stage
    | refuse stage | leave stage =>
      exact ⟨_, _, stepped, getElem?_update_self known _, by simp [stage, remaining]⟩

/-! ## Handlers that go as far as they can -/

theorem Handled.refl (reachable : Reachable s) : Handled s s :=
  ⟨reachable, rfl, rfl, rfl, fun _ gone => gone⟩

theorem Handled.trans (first : Handled s t) (second : Handled t u) : Handled s u where
  reachable := second.reachable
  world := by rw [second.world, first.world]
  control := second.control.trans first.control
  size := second.size.trans first.size
  gone id gone := second.gone id (first.gone id gone)

theorem Handles.size (handles : Handles traffic id c p a w later events) :
    later.connections.size = traffic.connections.size := by
  cases handles with
  | stay => rfl
  | _ => exact Array.size_modify

theorem Gone.handles (gone : Gone traffic id) (handles : Handles traffic other c p a w later events)
    (known : traffic.connections[other]? = some c) : Gone later id := by
  obtain ⟨c', known', stage⟩ := gone
  by_cases apart : id = other
  · subst apart
    obtain rfl := Option.some.inj (known.symm.trans known')
    cases handles with
    | stay => exact ⟨c, known, stage⟩
    | count at_ | reject at_ | register at_ | release at_ | proceed at_ | answer at_ | refuse at_
    | leave at_ => simp [at_] at stage
  · exact ⟨c', (handles.others apart).trans known', stage⟩

/-- A step of the shared traffic is a step of the system. -/
theorem Reachable.handled (reachable : Reachable s) (id : Nat) :
    ∃ t, s.world.traffic.handle id = .ok t.world.traffic ∧ s.step (.handle id) = .ok t ∧
      Handled s t := by
  obtain ⟨armed, -, t, -, stepped, steps⟩ := reachable.tallied.step_cases (.handle id)
  have handled : s.world.traffic.handle id = .ok t.world.traffic ∧
      t.world = { s.world with traffic := t.world.traffic } ∧ t.control = s.control := by
    have stepped : s.handle id = .ok t := stepped
    unfold System.handle at stepped
    cases handled : s.world.traffic.handle id with
    | error fault => simp [handled, bind, Except.bind] at stepped
    | ok traffic =>
      rw [handled] at stepped
      obtain rfl := Except.ok.inj stepped
      exact ⟨rfl, rfl, rfl⟩
  obtain ⟨handled, world, control⟩ := handled
  refine ⟨t, handled, stepped, reachable.step stepped, world, control, ?_, ?_⟩
  · cases steps with
    | unknown => rfl
    | handle known handles => exact handles.size
  · intro other gone
    cases steps with
    | unknown => exact gone
    | handle known handles => exact gone.handles handles known

/-- Steps of one handler; while a close waits for it, each of them brings it closer to its end. -/
theorem Reachable.handled_times (reachable : Reachable s) (id n : Nat) :
    ∃ t, (List.range n).foldlM (fun t _ => Traffic.handle t id) s.world.traffic =
        .ok t.world.traffic ∧ Handled s t ∧
      ∀ (listener : Nat) (purpose : Purpose), s.control = .settling listener purpose →
        ∀ c, s.world.traffic.connections[id]? = some c →
          ∃ c', t.world.traffic.connections[id]? = some c' ∧
            remaining c'.stage ≤ remaining c.stage - n := by
  induction n with
  | zero =>
    refine ⟨s, rfl, .refl reachable, ?_⟩
    intro listener purpose _ c known
    exact ⟨c, known, Nat.le_refl _⟩
  | succ n ih =>
    obtain ⟨t, ran, handled, closer⟩ := ih
    obtain ⟨u, once, stepped, further⟩ := handled.reachable.handled id
    refine ⟨u, ?_, handled.trans further, ?_⟩
    · rw [List.range_succ, List.foldlM_append, ran]
      simp only [List.foldlM_cons, List.foldlM_nil, bind, Except.bind, once]
      rfl
    · intro listener purpose settling c known
      obtain ⟨c', known', left⟩ := closer listener purpose settling c known
      have settling : t.control = .settling listener purpose := handled.control.trans settling
      have unblocked : c'.stage = .waiting → c'.finished = true := by
        intro waiting
        cases finished : c'.finished with
        | true => rfl
        | false =>
          exact absurd ⟨c', known', .inr waiting, finished⟩ (handled.reachable.settling settling id)
      obtain ⟨v, c'', stepped', known'', less⟩ := handled.reachable.nearer known' unblocked
      obtain rfl := Except.ok.inj (stepped.symm.trans stepped')
      exact ⟨c'', known'', by omega⟩

theorem remaining_lt (stage : Stage) : remaining stage < Traffic.handlerSteps := by
  cases stage <;> decide

theorem gone_of_remaining {stage : Stage} (none : remaining stage = 0) : stage = .gone := by
  cases stage <;> simp_all [remaining]

theorem Reachable.settleOne (reachable : Reachable s) (id : Nat) :
    ∃ t, s.world.traffic.settleOne id = .ok t.world.traffic ∧ Handled s t ∧
      ∀ (listener : Nat) (purpose : Purpose), s.control = .settling listener purpose →
        id < s.world.traffic.connections.size → Gone t.world.traffic id := by
  obtain ⟨t, ran, handled, closer⟩ := reachable.handled_times id Traffic.handlerSteps
  refine ⟨t, ran, handled, ?_⟩
  intro listener purpose settling within
  obtain ⟨c, known, left⟩ := closer listener purpose settling _ (Array.getElem?_eq_getElem within)
  have steps := remaining_lt s.world.traffic.connections[id].stage
  exact ⟨c, known, gone_of_remaining (by omega)⟩

theorem Reachable.settle_each (reachable : Reachable s) (ids : List Nat) :
    ∃ t, ids.foldlM Traffic.settleOne s.world.traffic = .ok t.world.traffic ∧ Handled s t ∧
      ∀ (listener : Nat) (purpose : Purpose), s.control = .settling listener purpose →
        ∀ id ∈ ids, id < s.world.traffic.connections.size → Gone t.world.traffic id := by
  induction ids generalizing s with
  | nil => exact ⟨s, rfl, .refl reachable, by simp⟩
  | cons id ids ih =>
    obtain ⟨t, once, first, own⟩ := reachable.settleOne id
    obtain ⟨u, ran, rest, others⟩ := ih first.reachable
    refine ⟨u, ?_, first.trans rest, ?_⟩
    · rw [List.foldlM_cons, once]
      exact ran
    · intro listener purpose settling other member within
      rcases List.mem_cons.mp member with rfl | later
      · exact rest.gone other (own listener purpose settling within)
      · apply others listener purpose (first.control.trans settling) other later
        rw [first.size]
        exact within

/-- Letting handlers go as far as they can is a run of them, and takes all of them to their end while
a close waits for them. -/
theorem Reachable.settle (reachable : Reachable s) :
    ∃ t, s.world.traffic.settle = .ok t.world.traffic ∧ Handled s t ∧
      ∀ (listener : Nat) (purpose : Purpose), s.control = .settling listener purpose →
        unanswered t.world.traffic = 0 := by
  obtain ⟨t, ran, handled, all⟩ :=
    reachable.settle_each (List.range s.world.traffic.connections.size)
  refine ⟨t, ran, handled, ?_⟩
  intro listener purpose settling
  apply List.countP_eq_zero.mpr
  intro c member
  obtain ⟨id, within, rfl⟩ := List.mem_iff_getElem.mp member
  rw [Array.length_toList] at within
  have before : id < s.world.traffic.connections.size := handled.size ▸ within
  obtain ⟨c, known, gone⟩ := all listener purpose settling id (List.mem_range.mpr before) before
  obtain rfl := Option.some.inj ((Array.getElem?_eq_getElem within).symm.trans known)
  simp [gone, isCounted]

end TapeLang.Interleaving

import TapeLang.Proofs.Interleaving.Operations

/-!
Handlers that go as far as they can. Between two operations of the interpreter each connection waits
for its response or has got it. When handlers go on from there, a connection whose response is complete
gets it and its handler is gone, and all others stay as they are (`settle_completed`); a connection that
arrives at an open listener ends up in its inbox, waiting (`settle_arrived`).
-/
namespace TapeLang.Delivery

open Http (Connection Listener Reply Stage Traffic)
open Interleaving

/-- What a connection that waits comes to when its handler goes on. -/
def completed (listeners : Array Listener) (c : Connection) : Connection :=
  match c.stage, c.finished, listeners[c.listener]? with
  | .waiting, true, some l => { c with stage := .gone, reply := some (Traffic.response l c) }
  | _, _, _ => c

/-- A connection that waits for its response or has got it. -/
def Rests (c : Connection) : Prop := c.stage = .waiting ∨ c.stage = .gone ∧ c.finished = true

/-- Every connection rests, and whoever waits does so at a listener that is there. -/
def Quiet (t : Traffic) : Prop :=
  ∀ (id : Nat) (c : Connection), t.connections[id]? = some c →
    Rests c ∧ (c.stage = .waiting → t.listeners[c.listener]? ≠ none)

/-- Nobody waits for a response that is complete, so no handler can go on. -/
def Settled (t : Traffic) : Prop :=
  ∀ (id : Nat) (c : Connection), t.connections[id]? = some c →
    c.stage = .waiting ∧ c.finished = false ∨ c.stage = .gone ∧ c.finished = true

variable {t u : Traffic} {id other listener p a w : Nat} {c : Connection} {l : Listener}

theorem completed_of_gone {listeners : Array Listener} (stage : c.stage = .gone) :
    completed listeners c = c := by
  simp [completed, stage]

theorem completed_of_unfinished {listeners : Array Listener} (unfinished : c.finished = false) :
    completed listeners c = c := by
  unfold completed
  split
  next finished _ => simp [unfinished] at finished
  next => rfl

theorem completed_of_finished {listeners : Array Listener} (stage : c.stage = .waiting)
    (finished : c.finished = true) (found : listeners[c.listener]? = some l) :
    completed listeners c =
      { c with stage := .gone, reply := some (Traffic.response l c) } := by
  simp only [completed, stage, finished, found]

theorem completed_listener (listeners : Array Listener) (c : Connection) :
    (completed listeners c).listener = c.listener := by
  unfold completed
  split <;> rfl

theorem waiting_of_completed {listeners : Array Listener}
    (waiting : (completed listeners c).stage = .waiting) : c.stage = .waiting := by
  unfold completed at waiting
  split at waiting
  · simp at waiting
  · exact waiting

theorem Rests.completed (rests : Rests c) (listeners : Array Listener) :
    Rests (completed listeners c) := by
  unfold Delivery.completed
  split
  next finished _ => exact .inr ⟨rfl, finished⟩
  next => exact rests

/-! ## One handler -/

/-- A handler that gets to where it stays within three steps. -/
theorem settleOne_eq {first second : Traffic} (one : t.handle id = .ok first)
    (two : first.handle id = .ok second) (three : second.handle id = .ok u)
    (stays : u.handle id = .ok u) : t.settleOne id = .ok u := by
  show List.foldlM (fun t _ => Traffic.handle t id) t [0, 1, 2, 3, 4, 5, 6] = .ok u
  simp only [List.foldlM_cons, List.foldlM_nil, one, two, three, stays, bind, Except.bind]
  rfl

theorem settleOne_of_stays (stays : t.handle id = .ok t) : t.settleOne id = .ok t :=
  settleOne_eq stays stays stays stays

theorem handle_gone (known : t.connections[id]? = some c) (gone : c.stage = .gone) :
    t.handle id = .ok t := by
  simp only [Traffic.handle, known, gone]

theorem handle_unfinished (known : t.connections[id]? = some c) (waiting : c.stage = .waiting)
    (unfinished : c.finished = false) : t.handle id = .ok t := by
  simp [Traffic.handle, known, waiting, unfinished]

/-- The handler of a complete response sends it and is gone. -/
theorem settleOne_finished (known : t.connections[id]? = some c) (waiting : c.stage = .waiting)
    (finished : c.finished = true) (found : t.listeners[c.listener]? = some l)
    (settled : t.settleOne id = .ok u) :
    u.listeners = t.listeners ∧ ∀ other, u.connections[other]? =
      if id = other then some (completed t.listeners c) else t.connections[other]? := by
  let answering : Traffic := t.setStage id .answering
  let leaving : Traffic := answering.update id fun c =>
    { c with reply := some (Traffic.response l c), stage := .leaving }
  have known₁ : answering.connections[id]? = some { c with stage := .answering } :=
    getElem?_update_self known _
  have known₂ : leaving.connections[id]? =
      some { c with reply := some (Traffic.response l c), stage := .leaving } :=
    getElem?_update_self known₁ _
  have one : t.handle id = .ok answering := by
    simp only [Traffic.handle, known, waiting, finished, ↓reduceIte, answering]
  have two : answering.handle id = .ok leaving := by
    have found' : answering.listeners[c.listener]? = some l := found
    simp only [Traffic.handle, known₁, found', leaving]
  cases done : leaving.waiters.done Waiters.write with
  | error fault =>
    have three : leaving.handle id = .error fault := by
      simp only [Traffic.handle, known₂, done, bind, Except.bind]
    exfalso
    have refused : t.settleOne id = .error fault := by
      show List.foldlM (fun t _ => Traffic.handle t id) t [0, 1, 2, 3, 4, 5, 6] = _
      simp only [List.foldlM_cons, one, two, three, bind, Except.bind]
    simp [refused] at settled
  | ok waiters =>
    let gone : Traffic := { leaving with waiters }.setStage id .gone
    have known₃ : gone.connections[id]? =
        some { c with reply := some (Traffic.response l c), stage := .gone } :=
      getElem?_update_self (t := { leaving with waiters }) known₂ _
    have three : leaving.handle id = .ok gone := by
      simp only [Traffic.handle, known₂, done, bind, Except.bind]
      rfl
    have same := settleOne_eq one two three (handle_gone known₃ rfl)
    obtain rfl := Except.ok.inj (same.symm.trans settled)
    refine ⟨rfl, ?_⟩
    intro other
    by_cases own : id = other
    · subst own
      rw [if_pos rfl, known₃, completed_of_finished waiting finished found]
    · rw [if_neg own]
      simp only [gone, leaving, answering, Traffic.setStage, getElem?_update, if_neg own]

/-- What settling one handler does to the connections. -/
theorem settleOne_completed (quiet : Quiet t) (settled : t.settleOne id = .ok u) :
    u.listeners = t.listeners ∧ ∀ other, u.connections[other]? =
      if id = other then t.connections[other]?.map (completed t.listeners)
      else t.connections[other]? := by
  have stays (same : t.handle id = .ok t)
      (own : ∀ c, t.connections[id]? = some c → completed t.listeners c = c) :
      u.listeners = t.listeners ∧ ∀ other, u.connections[other]? =
        if id = other then t.connections[other]?.map (completed t.listeners)
        else t.connections[other]? := by
    obtain rfl := Except.ok.inj ((settleOne_of_stays same).symm.trans settled)
    refine ⟨rfl, fun other => ?_⟩
    split
    next same =>
      subst same
      cases known : t.connections[id]? with
      | none => rfl
      | some c => rw [Option.map_some, own c known]
    next => rfl
  cases known : t.connections[id]? with
  | none =>
    apply stays
    · simp only [Traffic.handle, known]
    · simp [known]
  | some c =>
    obtain ⟨rests, hosted⟩ := quiet id c known
    have only : ∀ c', t.connections[id]? = some c' → c' = c := fun c' known' =>
      Option.some.inj (known'.symm.trans known)
    rcases rests with waiting | ⟨gone, -⟩
    · cases finished : c.finished with
      | false =>
        apply stays (handle_unfinished known waiting finished)
        intro c' known'
        rw [only c' known', completed_of_unfinished finished]
      | true =>
        obtain ⟨l, found⟩ := Option.ne_none_iff_exists'.mp (hosted waiting)
        obtain ⟨listeners, connections⟩ := settleOne_finished known waiting finished found settled
        refine ⟨listeners, fun other => ?_⟩
        rw [connections other]
        by_cases own : id = other
        · subst own
          simp [known]
        · simp [own]
    · apply stays (handle_gone known gone)
      intro c' known'
      rw [only c' known', completed_of_gone gone]

/-! ## All handlers -/

theorem Quiet.settleOne (quiet : Quiet t) (settled : t.settleOne id = .ok u) : Quiet u := by
  obtain ⟨listeners, connections⟩ := settleOne_completed quiet settled
  intro other c known
  rw [connections other] at known
  rw [listeners]
  split at known
  · obtain ⟨before, known', rfl⟩ := Option.map_eq_some_iff.mp known
    obtain ⟨rests, hosted⟩ := quiet other before known'
    refine ⟨rests.completed _, fun waiting => ?_⟩
    rw [completed_listener]
    exact hosted (waiting_of_completed waiting)
  · exact quiet other c known

theorem completed_completed (listeners : Array Listener) (c : Connection) :
    completed listeners (completed listeners c) = completed listeners c := by
  by_cases same : completed listeners c = c
  · rw [same, same]
  · apply completed_of_gone
    unfold completed at same ⊢
    split at same
    · rfl
    · exact absurd rfl same

theorem settle_each (quiet : Quiet t) (ids : List Nat)
    (settled : ids.foldlM Traffic.settleOne t = .ok u) :
    u.listeners = t.listeners ∧ ∀ other, u.connections[other]? =
      if other ∈ ids then t.connections[other]?.map (completed t.listeners)
      else t.connections[other]? := by
  induction ids generalizing t with
  | nil =>
    obtain rfl := Except.ok.inj settled
    simp
  | cons id ids ih =>
    rw [List.foldlM_cons] at settled
    cases once : t.settleOne id with
    | error fault => simp [once, bind, Except.bind] at settled
    | ok v =>
      rw [once] at settled
      obtain ⟨listeners, connections⟩ := settleOne_completed quiet once
      obtain ⟨listeners', connections'⟩ := ih (quiet.settleOne once) settled
      refine ⟨listeners'.trans listeners, fun other => ?_⟩
      rw [connections' other, connections other, listeners]
      by_cases own : id = other
      · subst own
        by_cases again : id ∈ ids
        · cases known : t.connections[id]? with
          | none => simp
          | some c => simp [again, completed_completed]
        · simp [again]
      · simp [own, Ne.symm own]

/-- When every handler goes on, the connections with a complete response get it. -/
theorem settle_completed (quiet : Quiet t) (settled : t.settle = .ok u) :
    u.listeners = t.listeners ∧
      ∀ id : Nat, u.connections[id]? = t.connections[id]?.map (completed t.listeners) := by
  obtain ⟨listeners, connections⟩ := settle_each quiet _ settled
  refine ⟨listeners, ?_⟩
  intro id
  rw [connections id]
  by_cases within : id < t.connections.size
  · rw [if_pos (List.mem_range.mpr within)]
  · have unknown : t.connections[id]? = none := Array.getElem?_eq_none (Nat.not_lt.mp within)
    rw [if_neg (by simpa using within), unknown]
    rfl

theorem settled_of_completed (quiet : Quiet t)
    (connections : ∀ id : Nat, u.connections[id]? = t.connections[id]?.map (completed t.listeners)) :
    Settled u := by
  intro id c known
  rw [connections id] at known
  obtain ⟨before, known', rfl⟩ := Option.map_eq_some_iff.mp known
  obtain ⟨waiting | ⟨gone, complete⟩, hosted⟩ := quiet id before known'
  · cases finished : before.finished with
    | false =>
      rw [completed_of_unfinished finished]
      exact .inl ⟨waiting, finished⟩
    | true =>
      obtain ⟨l, found⟩ := Option.ne_none_iff_exists'.mp (hosted waiting)
      rw [completed_of_finished waiting finished found]
      exact .inr ⟨rfl, finished⟩
  · rw [completed_of_gone gone]
    exact .inr ⟨gone, complete⟩

/-! ## Arriving -/

/-- Who rests and is not complete stays, whoever else is there. -/
theorem settle_stays (settled : Settled t) (ids : List Nat)
    (known : ∀ id ∈ ids, ∃ c, t.connections[id]? = some c ∧ u.connections[id]? = some c) :
    ids.foldlM Traffic.settleOne u = .ok u := by
  induction ids with
  | nil => rfl
  | cons id ids ih =>
    obtain ⟨c, before, now⟩ := known id List.mem_cons_self
    have stays : u.settleOne id = .ok u := by
      apply settleOne_of_stays
      obtain ⟨waiting, unfinished⟩ | ⟨gone, -⟩ := settled id c before
      · exact handle_unfinished now waiting unfinished
      · exact handle_gone now gone
    rw [List.foldlM_cons, stays]
    exact ih fun other member => known other (List.mem_cons_of_mem id member)

/-- The handler of a connection that has just arrived at an open listener. -/
theorem settleOne_counting (counts : t.waiters = .counts p a w)
    (known : t.connections[id]? = some c) (counting : c.stage = .counting)
    (unfinished : c.finished = false) (found : t.listeners[c.listener]? = some l)
    (opened : l.closed = false) :
    ∃ u, t.settleOne id = .ok u ∧
      u.listeners = (setListener t c.listener (enlisted l id)).listeners ∧
      ∀ other, u.connections[other]? =
        if id = other then some { c with stage := .waiting } else t.connections[other]? := by
  let counted : Traffic := { t with waiters := .counts p a (w + 1) }.setStage id .registering
  let listed : Traffic := (setListener counted c.listener (enlisted l id)).setStage id .releasing
  let waiting : Traffic := { listed with waiters := .counts p (a - 1) (w + 1) }.setStage id .waiting
  have known₁ : counted.connections[id]? = some { c with stage := .registering } :=
    getElem?_update_self (t := { t with waiters := .counts p a (w + 1) }) known _
  have known₂ : listed.connections[id]? = some { c with stage := .releasing } :=
    getElem?_update_self (t := setListener counted c.listener (enlisted l id)) known₁ _
  have known₃ : waiting.connections[id]? = some { c with stage := .waiting } :=
    getElem?_update_self (t := { listed with waiters := .counts p (a - 1) (w + 1) }) known₂ _
  have one : t.handle id = .ok counted := by
    simp only [Traffic.handle, known, counting, counts, Waiters.counts_add_write, counted]
    rfl
  have two : counted.handle id = .ok listed := by
    have found' : counted.listeners[c.listener]? = some l := found
    simp only [Traffic.handle, known₁, Traffic.register, found', opened, Bool.false_eq_true,
      ↓reduceIte, listed, setListener, enlisted]
  have three : listed.handle id = .ok waiting := by
    have counts' : listed.waiters = .counts p a (w + 1) := rfl
    simp only [Traffic.handle, known₂, counts', Waiters.counts_doneIfPending, waiting]
    rfl
  have stays : waiting.handle id = .ok waiting :=
    handle_unfinished known₃ rfl unfinished
  refine ⟨waiting, settleOne_eq one two three stays, rfl, ?_⟩
  intro other
  by_cases own : id = other
  · subst own
    rw [if_pos rfl, known₃]
  · simp only [waiting, listed, counted, setListener, Traffic.setStage, getElem?_update, if_neg own]

/-- A client that connects to an open listener gets into its inbox, and waits. -/
theorem settle_arrived (settled : Settled t) (counts : t.waiters = .counts p a w)
    (found : t.listeners[listener]? = some l) (opened : l.closed = false) (body : List UInt8) :
    ∃ u, (t.arrive listener body).settle = .ok u ∧
      u.listeners = (setListener t listener (enlisted l t.connections.size)).listeners ∧
      ∀ id : Nat, u.connections[id]? =
        if t.connections.size = id then some { listener, input := body, stage := .waiting }
        else t.connections[id]? := by
  have newest : (t.arrive listener body).connections[t.connections.size]? =
      some { listener, input := body } := by
    simp [Traffic.arrive]
  obtain ⟨u, last, listeners, connections⟩ :=
    settleOne_counting (t := t.arrive listener body) counts newest rfl rfl found opened
  refine ⟨u, ?_, listeners, ?_⟩
  · have earlier : (List.range t.connections.size).foldlM Traffic.settleOne
        (t.arrive listener body) = .ok (t.arrive listener body) := by
      apply settle_stays settled
      intro id member
      have known : t.connections[id]? = some _ :=
        Array.getElem?_eq_getElem (List.mem_range.mp member)
      exact ⟨_, known, getElem?_arrive known listener body⟩
    have size : (t.arrive listener body).connections.size = t.connections.size + 1 :=
      Array.size_push _
    rw [Traffic.settle, size, List.range_succ, List.foldlM_append, earlier]
    simp only [bind, Except.bind, List.foldlM_cons, last, List.foldlM_nil]
    rfl
  · intro id
    rw [connections id]
    by_cases own : t.connections.size = id
    · rw [if_pos own, if_pos own]
    · rw [if_neg own, if_neg own]
      simp [Traffic.arrive, Array.getElem?_push, Ne.symm own]

end TapeLang.Delivery

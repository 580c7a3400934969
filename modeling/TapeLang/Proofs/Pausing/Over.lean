import TapeLang.Proofs.Pausing

/-!
Stepping over. A step over lets through the statement that a pause stands before, and the one that
execution comes to after that, and pauses at what comes next. As long as there is such a statement in the
block, or the block ends after the second one, that one counts with its whole execution. Where the block
ends before it, statements are counted instead, and a loop that is entered counts with the first
statement inside it: the run pauses there (`step_over_pauses`).
-/
namespace TapeLang.Machine

open Source (Block Header Statement)
open Debug (Steering)

variable {m n k : Machine} {s t : Statement} {σ : Steering} {command : Debug.Command}

/-- A step over lets the statement act and arms ahead by two. -/
theorem Hears.stepOver (hears : m.Hears s command)
    (asks : Debug.Operation.ofName? command.operation = some .stepOver) :
    m.step.place = m.place ∧ m.step.phase = .ready ∧
      m.step.steering = m.steering.armAhead m.frame.block.length m.frame.index m.around 2 ∧
      m.step.attached = m.attached := by
  obtain ⟨world, stands, stepped⟩ := hears.answer
  have attached : ({ m with world }.armAhead 2).proceed.attached = m.attached :=
    attached_proceed.trans (attached_congr stands)
  rw [stepped, Machine.answer, asks]
  exact ⟨rfl, rfl, rfl, attached⟩

/-- A machine does not pause where it lets the statement that it has come to act. -/
theorem not_pausesHere
    (passes : m.phase = .arriving → m.frame.rest.uncons? ≠ none → m.step.phase = .ready) :
    ¬ m.PausesHere := by
  rintro ⟨⟨s, arriving, next, first⟩, other⟩
  exact other (passes arriving (by simp [first]))

theorem not_pausesHere_iterate {i : Nat}
    (passes : (step^[i] m).phase = .arriving → (step^[i] m).frame.rest.uncons? ≠ none →
      (step^[i + 1] m).phase = .ready) : ¬ (step^[i] m).PausesHere :=
  not_pausesHere (by rwa [← Function.iterate_succ_apply' step])

/-! ## A statement that is let through -/

/-- The statement that execution has come to is let through. Inside it the run pauses at marked
statements, and at all where statements are counted. When it has completed without a pause, the run
pauses at the first statement that execution comes to. -/
structure LetsThrough (n : Machine) (counted : Prop) : Prop where
  acts : n.step.phase = .ready ∧ n.step.place = n.place
  inside : ∀ j t, Through (fun j => n.During j ∧ ¬ j.PausesHere) n.step j → n.During j → j.Visits t →
    (j.PausesHere ↔ t.head.marked = true ∨ counted)
  after : ∀ j, Through (fun j => n.During j ∧ ¬ j.PausesHere) n.step j → ¬ n.During j →
    (∃ s next, n.frame.rest.uncons? = some (s, next) ∧ j.place = n.frame.past next :: n.outer) ∧
    ∀ i t, Through (fun i => ∀ t, ¬ i.Visits t) j i → i.Visits t → i.PausesHere

/-- A statement that a run does not pause at is about to act, and execution is inside it. -/
theorem inside_of_unpaused (attached : n.attached = true) (visits : n.Visits t)
    (unpaused : ¬ n.PausesHere) :
    Inside n n.step.steering n.step ∧ n.step.phase = .ready ∧ n.step.place = n.place ∧
      n.steering.shouldPause n.site t.head.marked = (false, n.step.steering) := by
  cases looks_step visits with
  | passes place ready stands _ unarmed =>
    refine ⟨⟨⟨[], place.symm⟩, rfl, (attached_congr stands).trans attached, ?_, fun _ => ?_⟩, ready, place,
      unarmed attached⟩
    · simp [ready]
    · simp [ready]
  | pauses _ _ attached _ armed => exact absurd ((pauses_iff visits).mpr ⟨attached, armed⟩) unpaused

theorem Left.place (left : Left m σ n) :
    ∃ s next, m.frame.rest.uncons? = some (s, next) ∧ n.place = m.frame.past next :: m.outer := by
  obtain ⟨s, next, first, frame⟩ := left.frame
  exact ⟨s, next, first, by rw [Machine.place, frame, left.outer]⟩

/-! ## In the block, and at its end -/

theorem Left.around (left : Left m σ n) : n.around = m.around := by
  rw [Machine.around, Machine.around, left.outer]

/-- What concerns no statement inside one concerns none inside the next one of the block. -/
theorem Left.asked (left : Left m σ n) (asked : Asked m σ) : Asked n σ where
  countdown := asked.countdown
  transient site member := by
    have bound := asked.transient site member
    simpa [Machine.place, left.outer] using bound
  carry level count carried := by
    rw [asked.carry level count carried, depth, depth, left.outer]

/-- Where a statement comes next in the block, execution is at it. -/
theorem Left.through (left : Left m σ k) (placed : m.frame.InPlace)
    (room : m.frame.index + 1 < m.frame.block.length)
    (through : Through (fun k => ∀ t, ¬ k.Visits t) k n) : Left m σ n := by
  refine through.keeps (q := fun n => Left m σ n) ?_ (fun n world stands left => left.others stands) left
  intro n unvisited left
  obtain ⟨s, next, first, frame⟩ := left.frame
  obtain ⟨⟨t, rest⟩, here⟩ := Option.ne_none_iff_exists'.mp ((past_uncons placed first).mpr room)
  refine absurd ⟨left.phase, rest, ?_⟩ (unvisited t)
  rw [frame]
  exact here

/-- What a step over asks for is a step from the statement after. -/
theorem Left.armAhead (left : Left m σ n) (before : Steering) :
    before.armAhead m.frame.block.length m.frame.index m.around 2 =
      before.armAhead n.frame.block.length n.frame.index n.around 1 := by
  obtain ⟨s, next, -, frame⟩ := left.frame
  rw [left.around, frame]
  rfl

/-- The statement next in the block is armed by earlier pauses alone. -/
theorem Left.pauses_iff {before : Steering} (left : Left m σ n) (off : before.countdown = 0)
    (asked : σ = before.armAhead m.frame.block.length m.frame.index m.around 2) (visits : n.Visits t) :
    n.PausesHere ↔ t.head.marked = true ∨ n.site ∈ before.transient := by
  have here : n.site = (m.frame.index + 1) :: m.around := by
    obtain ⟨s, next, -, frame⟩ := left.frame
    rw [site, left.around, frame]
    rfl
  have armed : n.site ∈ σ.transient ↔ n.site ∈ before.transient := by
    rw [asked]
    unfold Steering.armAhead
    split
    · rw [Steering.mem_arm, or_iff_right]
      simp [here]
    · exact Iff.rfl
  have quiet : σ.countdown = 0 := by
    rw [asked]
    unfold Steering.armAhead
    split <;> exact off
  rw [Machine.pauses_iff visits, left.steering, Steering.shouldPause, quiet]
  simp [left.attached, Steering.isArmed, armed]

/-- The next statement of the block is let through whole. -/
theorem Left.letsThrough {before : Steering} (left : Left m σ n) (guided : n.Guided) (asks : Asked m σ)
    (off : before.countdown = 0)
    (asked : σ = before.armAhead m.frame.block.length m.frame.index m.around 2) (visits : n.Visits t)
    (unpaused : ¬ n.PausesHere) : n.LetsThrough False := by
  obtain ⟨inside, ready, place, passes⟩ := inside_of_unpaused left.attached visits unpaused
  have asks := left.asked asks
  have same : n.step.steering = σ := by
    rw [left.steering, Steering.shouldPause, asks.countdown] at passes
    exact (Prod.mk.inj passes).2.symm
  rw [same] at inside
  refine ⟨⟨ready, place⟩, ?_, ?_⟩
  · intro j t through during visits
    rw [or_false]
    rcases (inside.through asks guided.step through).2 with inside | left
    · exact inside.pauses_iff asks visits
    · exact absurd during left.not_during
  · intro j through outside
    obtain ⟨guided', inside | left'⟩ := inside.through asks guided.step through
    · exact absurd inside.during outside
    · rw [left.armAhead] at asked
      exact ⟨left'.place, fun i t unvisited visits =>
        ((left'.due guided.placed.frame asked off).through guided' unvisited).pauses visits⟩

/-! ## Counted statements -/

/-- The second statement that execution comes to is paused at: the count is at two, or comes to two with
the end of this block. What is armed is as given. -/
structure Counts (armed : List Block.Site) (n : Machine) : Prop where
  attached : n.attached = true
  phase : n.phase = .arriving ∨ ∃ outcome, n.phase = .halted outcome
  transient : n.steering.transient = armed
  counting : n.steering.countdown = 2 ∨
    n.steering.carry = some (n.depth, 2) ∧ n.frame.rest.uncons? = none

variable {armed : List Block.Site}

theorem Counts.step (counts : Counts armed n) (guided : n.Guided) (unvisited : ∀ t, ¬ n.Visits t) :
    Counts armed n.step := by
  rcases counts.phase with phase | ⟨outcome, phase⟩
  · cases first : n.frame.rest.uncons? with
    | some found => exact absurd ⟨phase, found.2, first⟩ (unvisited found.1)
    | none =>
      have ends : n.step = n.endBlock := by simp only [Machine.step, phase, first]
      obtain ⟨goes, steering, world⟩ := ends_endBlock guided.placed phase
      rw [← ends] at goes steering world
      refine ⟨?_, ?_, ?_, .inl ?_⟩
      · rw [Machine.attached, world]
        exact counts.attached
      · cases goes with
        | halts _ outcome phase => exact .inr ⟨outcome, phase⟩
        | again _ _ phase | leaves _ _ _ _ phase => exact .inl phase
      · rw [steering, Steering.transient_blockEnded]
        exact counts.transient
      · rw [steering, Steering.blockEnded]
        rcases counts.counting with second | ⟨carried, -⟩
        · have idle : n.steering.carry = none := guided.sound.single.resolve_left (by simp [second])
          simp [idle, second]
        · simp [carried]
  · have same : n.step = n := by simp only [Machine.step, phase]
    rwa [same]

theorem Counts.others {world : World} (counts : Counts armed n)
    (stands : world.standing = n.world.standing) : Counts armed { n with world } :=
  ⟨(attached_congr stands).trans counts.attached, counts.phase, counts.transient, counts.counting⟩

theorem Counts.through (counts : Counts armed k) (guided : k.Guided)
    (through : Through (fun k => ∀ t, ¬ k.Visits t) k n) : n.Guided ∧ Counts armed n := by
  refine through.keeps (q := fun n => n.Guided ∧ Counts armed n) ?_ ?_ ⟨guided, counts⟩
  · exact fun n unvisited ⟨guided, counts⟩ => ⟨guided.step, counts.step guided unvisited⟩
  · exact fun n world stands ⟨guided, counts⟩ =>
      ⟨guided.turn (.others world stands), counts.others stands⟩

theorem Counts.second (counts : Counts armed n) (visits : n.Visits t) : n.steering.countdown = 2 := by
  obtain ⟨-, next, first⟩ := visits
  rcases counts.counting with second | ⟨-, ended⟩
  · exact second
  · simp [first] at ended

theorem Counts.pauses_iff (counts : Counts armed n) (visits : n.Visits t) :
    n.PausesHere ↔ t.head.marked = true ∨ n.site ∈ armed := by
  rw [Machine.pauses_iff visits, Steering.shouldPause, counts.second visits]
  simp [counts.attached, Steering.isArmed, counts.transient]

/-- Where the next statement is paused at in any case, a step from inside a statement that does not pause
stays inside or goes past the statement. -/
theorem Inside.step_counted (inside : Inside m σ n) (last : σ.countdown = 1) (idle : σ.carry = none)
    (guided : n.Guided) (unpaused : ¬ n.PausesHere) : Inside m σ n.step ∨ Left m σ n.step := by
  cases phase : n.phase with
  | halted outcome =>
    have same : n.step = n := by simp only [Machine.step, phase]
    rw [same]
    exact .inl inside
  | paused => exact absurd phase inside.unpaused
  | arriving =>
    cases first : n.frame.rest.uncons? with
    | some found =>
      have visits : n.Visits found.1 := ⟨phase, found.2, first⟩
      refine absurd ((Machine.pauses_iff visits).mpr ⟨inside.attached, ?_⟩) unpaused
      rw [inside.steering, Steering.shouldPause, last]
    | none => exact inside.ends (by simp [idle]) guided phase first
  | ready => exact inside.acts guided phase

theorem Inside.through_counted (inside : Inside m σ k) (last : σ.countdown = 1) (idle : σ.carry = none)
    (guided : k.Guided) (through : Through (fun n => m.During n ∧ ¬ n.PausesHere) k n) :
    n.Guided ∧ (Inside m σ n ∨ Left m σ n) := by
  refine through.keeps (q := fun n => n.Guided ∧ (Inside m σ n ∨ Left m σ n)) ?_ ?_
    ⟨guided, .inl inside⟩
  · rintro n ⟨during, unpaused⟩ ⟨guided, inside | left⟩
    · exact ⟨guided.step, inside.step_counted last idle guided unpaused⟩
    · exact absurd during left.not_during
  · rintro n world stands ⟨guided, inside | left⟩
    · exact ⟨guided.turn (.others world stands), .inl (inside.others stands)⟩
    · exact ⟨guided.turn (.others world stands), .inr (left.others stands)⟩

/-- A statement that is counted is let through up to the first statement inside it. -/
theorem Counts.letsThrough (counts : Counts armed n) (guided : n.Guided) (visits : n.Visits t)
    (unpaused : ¬ n.PausesHere) : n.LetsThrough True := by
  obtain ⟨inside, ready, place, passes⟩ := inside_of_unpaused counts.attached visits unpaused
  have second := counts.second visits
  have ⟨last, idle⟩ : n.step.steering.countdown = 1 ∧ n.step.steering.carry = none := by
    rw [Steering.shouldPause, second] at passes
    rw [← (Prod.mk.inj passes).2]
    exact ⟨rfl, guided.sound.single.resolve_left (by simp [second])⟩
  refine ⟨⟨ready, place⟩, ?_, ?_⟩
  · intro j t through during visits
    rcases (inside.through_counted last idle guided.step through).2 with inside | left
    · rw [Machine.pauses_iff visits, inside.steering, Steering.shouldPause, last]
      simp [inside.attached]
    · exact absurd during left.not_during
  · intro j through outside
    obtain ⟨guided', inside | left⟩ := inside.through_counted last idle guided.step through
    · exact absurd inside.during outside
    · have due : j.Due := ⟨left.attached, .inl left.phase, .inl (by rw [left.steering, last])⟩
      exact ⟨left.place, fun i t unvisited visits => (due.through guided' unvisited).pauses visits⟩

/-- Past the last statement of a block a step over counts. -/
theorem Left.counts {before : Steering} (left : Left m σ n) (placed : m.frame.InPlace)
    (full : ¬ m.frame.index + 1 < m.frame.block.length)
    (asked : σ = before.armAhead m.frame.block.length m.frame.index m.around 2) :
    Counts before.transient n := by
  obtain ⟨s, next, first, frame⟩ := left.frame
  have inside := placed.here first
  have carried : σ = { before with carry := some (m.around.length, 2) } := by
    have count : m.frame.index + 2 - m.frame.block.length + 1 = 2 := by omega
    rw [asked, Steering.armAhead, if_neg (by omega), count]
  refine ⟨left.attached, .inl left.phase, by rw [left.steering, carried], .inr ⟨?_, ?_⟩⟩
  · rw [left.steering, carried, depth, left.outer]
    simp [Machine.around]
  · by_contra more
    rw [frame] at more
    exact full ((past_uncons placed first).mp more)

/-! ## Steps over -/

/-- A run that has ended comes to no statement. -/
theorem Later.unvisited {outcome : Outcome} (later : m.Later n) (halted : m.outcome? = some outcome) :
    (∀ t, ¬ n.Visits t) ∧ ¬ n.PausesHere := by
  have ended := phase_of_halted (later.of_halted halted).1
  have unvisited (t : Statement) : ¬ n.Visits t := by
    rintro ⟨arriving, -⟩
    rw [ended] at arriving
    exact Phase.noConfusion arriving
  exact ⟨unvisited, fun ⟨⟨t, visits⟩, _⟩ => unvisited t visits⟩

/-- A step over at a pause, in any run. The statement is let through, with pauses at the marked statements
inside it and at no other. When it has completed without a pause, the next statement that execution comes
to is paused at where it is marked or was armed by an earlier pause, and else it is let through in turn.
Inside that one the run pauses at marked statements; but where the block has ended in between, it pauses
at the first statement inside. When it has completed without a pause, the run pauses at the first statement
that execution comes to, wherever that is. -/
theorem step_over_pauses {program : Block} {tape : Tape} {world : World}
    (fresh : ¬ world.ShowsPause) (reached : (start program tape world).Later m)
    (hears : m.Hears s command)
    (asks : Debug.Operation.ofName? command.operation = some .stepOver) :
    (m.step.phase = .ready ∧ m.step.place = m.place) ∧
    (∀ n t, Through (fun k => m.During k ∧ ¬ k.PausesHere) m.step n → m.During n → n.Visits t →
      (n.PausesHere ↔ t.head.marked = true)) ∧
    (∀ k, Through (fun k => m.During k ∧ ¬ k.PausesHere) m.step k → ¬ m.During k →
      ∃ rest, m.frame.rest.uncons? = some (s, rest) ∧ k.place = m.frame.past rest :: m.outer ∧
        ∀ n t, Through (fun k => ∀ t, ¬ k.Visits t) k n → n.Visits t →
          (n.PausesHere ↔ t.head.marked = true ∨ n.site ∈ m.steering.transient) ∧
          (¬ n.PausesHere → n.LetsThrough (rest = .nil))) ∧
    (∀ n outcome, m.step.Later n → n.outcome? = some outcome →
      ∀ k, n.Later k → (∀ t, ¬ k.Visits t) ∧ ¬ k.PausesHere) := by
  have guided : m.Guided := (guided_start fresh).later reached
  have paused : m.phase = .paused := hears.1
  obtain ⟨attached, off, -⟩ := guided.paused paused
  obtain ⟨place, ready, steering, still⟩ := hears.stepOver asks
  have asked := guided.asked paused (.inr rfl)
  rw [← steering] at asked
  have inside : Inside m m.step.steering m.step :=
    { during := ⟨[], place.symm⟩
      steering := rfl
      attached := still.trans attached
      unpaused := by simp [ready]
      standing := fun _ => by simp [ready] }
  refine ⟨⟨ready, place⟩, ?_, ?_, fun n outcome _ halted k later => later.unvisited halted⟩
  · intro n t through during visits
    rcases (inside.through asked guided.step through).2 with inside | left
    · exact inside.pauses_iff asked visits
    · exact absurd during left.not_during
  · intro k through outside
    obtain ⟨guided', inside | left⟩ := inside.through asked guided.step through
    · exact absurd inside.during outside
    obtain ⟨-, ⟨rest, first⟩, -⟩ := hears
    obtain ⟨s', rest', first', there⟩ := left.place
    obtain ⟨-, rfl⟩ := Prod.mk.inj (Option.some.inj (first.symm.trans first'))
    refine ⟨rest, first, there, fun n t unvisited visits => ?_⟩
    by_cases room : m.frame.index + 1 < m.frame.block.length
    · -- the next statement is in the block, and so is what the step over asks for
      have left := left.through guided.placed.frame room unvisited
      have more : (rest = .nil) = False := by
        refine eq_false fun ended => (past_uncons guided.placed.frame first).mpr room ?_
        rw [ended]
        rfl
      refine ⟨left.pauses_iff off steering visits, fun unpaused => ?_⟩
      rw [more]
      exact left.letsThrough (guided'.later unvisited.later) asked off steering visits unpaused
    · -- the block ends first, and statements are counted
      obtain ⟨guided', counts⟩ :=
        (left.counts guided.placed.frame room steering).through guided' unvisited
      have full : (rest = .nil) = True := by
        refine eq_true (Block.eq_nil_of_uncons ?_)
        by_contra more
        exact room ((past_uncons guided.placed.frame first).mp more)
      refine ⟨counts.pauses_iff visits, fun unpaused => ?_⟩
      rw [full]
      exact counts.letsThrough guided' visits unpaused

/-- A client steps over a loop that runs once, and the run pauses at the statement after the loop. -/
theorem step_over_pauses_loop :
    let program : Block := .act ⟨⟨1, 6⟩, true⟩ .increment <|
      .loop ⟨⟨1, 7⟩, false⟩ (.act ⟨⟨1, 8⟩, false⟩ .decrement .nil) <|
        .act ⟨⟨1, 10⟩, false⟩ .increment .nil
    let command : Debug.Command := { operation := .ofString "step-over" }
    let client : Debug.Session := { state := .running, reader := { pending := [command.encode] } }
    let m := (start program ⟨#[0], 0⟩ { session := some client }).step
    m.Hears (.act ⟨⟨1, 6⟩, true⟩ .increment) command ∧
      Debug.Operation.ofName? command.operation = some .stepOver ∧
      (step^[2] m).Visits (.loop ⟨⟨1, 7⟩, false⟩ (.act ⟨⟨1, 8⟩, false⟩ .decrement .nil)) ∧
      ¬ (step^[2] m).PausesHere ∧
      (step^[7] m).Visits (.act ⟨⟨1, 10⟩, false⟩ .increment) ∧ (step^[7] m).PausesHere := by
  intro program command client m
  have fresh : ¬ World.ShowsPause { session := some client } :=
    World.not_showsPause rfl (by simp [client])
  have reached : (start program ⟨#[0], 0⟩ { session := some client }).Later m := later_step _
  have hears : m.Hears (.act ⟨⟨1, 6⟩, true⟩ .increment) command :=
    ⟨rfl, ⟨_, rfl⟩, _, rfl, by decide +kernel⟩
  have asks : Debug.Operation.ofName? command.operation = some .stepOver := by decide +kernel
  have loop : (step^[2] m).Visits (.loop ⟨⟨1, 7⟩, false⟩ (.act ⟨⟨1, 8⟩, false⟩ .decrement .nil)) :=
    ⟨by decide +kernel, .act ⟨⟨1, 10⟩, false⟩ .increment .nil, by decide +kernel⟩
  have after : (step^[7] m).Visits (.act ⟨⟨1, 10⟩, false⟩ .increment) :=
    ⟨by decide +kernel, .nil, by decide +kernel⟩
  have outside : ¬ m.place <:+ (step^[2] m).place := by decide +kernel
  have checked : ∀ i < 6, ((step^[1 + i] m).phase = .arriving →
        (step^[1 + i] m).frame.rest.uncons? ≠ none → (step^[1 + i + 1] m).phase = .ready) ∧
      (2 ≤ i → (step^[2] m).place <:+ (step^[1 + i] m).place) := by
    decide +kernel
  have beyond : ¬ (step^[2] m).place <:+ (step^[7] m).place := by decide +kernel
  -- from here on the machine need not be known
  clear_value m
  obtain ⟨⟨-, place⟩, -, next, -⟩ := step_over_pauses fresh reached hears asks
  have unpaused (i : Nat) (fewer : i < 6) : ¬ (step^[1 + i] m).PausesHere :=
    not_pausesHere_iterate (checked i fewer).1
  have first : Through (fun k => m.During k ∧ ¬ k.PausesHere) m.step (step^[2] m) := by
    refine through_iterate 1 1 fun i fewer => ?_
    obtain rfl : i = 0 := by omega
    exact ⟨⟨[], place.symm⟩, unpaused 0 (by omega)⟩
  obtain ⟨rest, -, -, goesOn⟩ := next _ first outside
  have through := (goesOn _ _ .refl loop).2 (unpaused 1 (by omega))
  have inside : Through (fun j => (step^[2] m).During j ∧ ¬ j.PausesHere) (step^[3] m) (step^[7] m) := by
    refine through_iterate 3 4 fun i fewer => ?_
    have same : 3 + i = 1 + (i + 2) := by omega
    rw [same]
    exact ⟨(checked (i + 2) (by omega)).2 (by omega), unpaused (i + 2) (by omega)⟩
  rw [Function.iterate_succ_apply' step 2] at inside
  exact ⟨hears, asks, loop, unpaused 1 (by omega), after,
    (through.after _ inside beyond).2 _ _ .refl after⟩

/-- A client steps over from the end of a loop, with its first statement to come again: a loop, which is
not marked, and which no earlier pause armed. The run pauses inside it. -/
theorem step_over_pauses_inside :
    let inner : Statement := .loop ⟨⟨1, 6⟩, false⟩ (.act ⟨⟨1, 7⟩, false⟩ .decrement .nil)
    let program : Block := .act ⟨⟨1, 1⟩, false⟩ .increment <| .act ⟨⟨1, 2⟩, false⟩ .moveRight <|
      .act ⟨⟨1, 3⟩, false⟩ .increment <| .act ⟨⟨1, 4⟩, false⟩ .moveLeft <|
        .loop ⟨⟨1, 5⟩, false⟩ (.cons inner <| .act ⟨⟨1, 9⟩, false⟩ .input <|
          .act ⟨⟨1, 15⟩, true⟩ .moveRight .nil) .nil
    let command : Debug.Command := { operation := .ofString "step-over" }
    let client : Debug.Session := { state := .running, reader := { pending := [command.encode] } }
    let m := step^[18] (start program (.blank Tape.standardSize) { session := some client })
    let n := step^[3] m
    (Block.parse "+>+<[[-],debug>]".toList).toOption = some program ∧
      m.Hears (.act ⟨⟨1, 15⟩, true⟩ .moveRight) command ∧
      Debug.Operation.ofName? command.operation = some .stepOver ∧
      Through (fun k => m.During k ∧ ¬ k.PausesHere) m.step (step^[2] m) ∧ ¬ m.During (step^[2] m) ∧
      Through (fun k => ∀ t, ¬ k.Visits t) (step^[2] m) n ∧
      n.Visits inner ∧ inner.head.marked = false ∧ n.site ∉ m.steering.transient ∧ ¬ n.PausesHere ∧
      Through (fun k => n.During k ∧ ¬ k.PausesHere) n.step (step^[5] m) ∧ n.During (step^[5] m) ∧
      (step^[5] m).Visits (.act ⟨⟨1, 7⟩, false⟩ .decrement) ∧ (step^[5] m).PausesHere := by
  intro inner program command client m n
  have parsed : (Block.parse "+>+<[[-],debug>]".toList).toOption = some program := by decide +kernel
  have asks : Debug.Operation.ofName? command.operation = some .stepOver := by decide +kernel
  have hears : m.phase = .paused ∧ m.frame.rest.uncons? = some (.act ⟨⟨1, 15⟩, true⟩ .moveRight, .nil) ∧
      m.world.session.map (·.readCommand.1) = some (.command command) := by decide +kernel
  have checked : (∀ i < 4, (step^[1 + i] m).phase = .arriving →
        (step^[1 + i] m).frame.rest.uncons? ≠ none → (step^[1 + i + 1] m).phase = .ready) ∧
      m.place <:+ (step^[1] m).place ∧ ¬ m.place <:+ (step^[2] m).place ∧
      (step^[2] m).frame.rest.uncons? = none ∧
      ((step^[3] m).phase = .arriving ∧ (step^[3] m).frame.rest.uncons?.map (·.1) = some inner) ∧
      (step^[3] m).site ∉ m.steering.transient ∧
      (step^[3] m).place <:+ (step^[4] m).place ∧ (step^[3] m).place <:+ (step^[5] m).place ∧
      ((step^[5] m).phase = .arriving ∧
        (step^[5] m).frame.rest.uncons? = some (.act ⟨⟨1, 7⟩, false⟩ .decrement, .nil)) ∧
      (step^[6] m).phase = .paused := by
    decide +kernel
  -- from here on the machine need not be known
  clear_value m
  obtain ⟨paused, here, heard⟩ := hears
  obtain ⟨passes, acts, outside, ended, ⟨arrived, first⟩, unarmed, waits, enters, ⟨came, inside⟩, stops⟩ :=
    checked
  obtain ⟨session, client, command⟩ := Option.map_eq_some_iff.mp heard
  obtain ⟨⟨_, rest⟩, found, rfl⟩ := Option.map_eq_some_iff.mp first
  have unpaused (i : Nat) (fewer : i < 4) : ¬ (step^[1 + i] m).PausesHere :=
    not_pausesHere_iterate (passes i fewer)
  refine ⟨parsed, ⟨paused, ⟨_, here⟩, session, client, command⟩, asks, ?_, outside, ?_,
    ⟨arrived, rest, found⟩, rfl, unarmed, unpaused 2 (by omega), ?_, enters, ⟨came, _, inside⟩,
    ⟨_, came, _, inside⟩, ?_⟩
  · refine through_iterate 1 1 fun i fewer => ?_
    obtain rfl : i = 0 := by omega
    exact ⟨acts, unpaused 0 (by omega)⟩
  · refine through_iterate 2 1 fun i fewer => ?_
    obtain rfl : i = 0 := by omega
    rintro t ⟨-, next, more⟩
    have none : none = some (t, next) := ended.symm.trans more
    simp at none
  · have through : Through (fun k => n.During k ∧ ¬ k.PausesHere) (step^[4] m) (step^[5] m) := by
      refine through_iterate 4 1 fun i fewer => ?_
      obtain rfl : i = 0 := by omega
      exact ⟨waits, unpaused 3 (by omega)⟩
    rwa [Function.iterate_succ_apply' step 3] at through
  · rw [← Function.iterate_succ_apply' step, stops]
    exact Phase.noConfusion

end TapeLang.Machine

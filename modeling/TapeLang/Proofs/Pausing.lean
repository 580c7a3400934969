import TapeLang.Proofs.Steering

/-!
Where a run pauses next. A statement is being executed as long as the frames it stands in are at the
bottom of the stack (`During`), a loop through all of its iterations. Nothing of what is asked for at a
pause there concerns a statement inside it (`Asked`), so it is as it was when the statement has completed
(`Left`); from then on a step is due at the first statement that execution comes to (`Due`), in this
block, in the next iteration of a loop, or beyond.
-/
namespace TapeLang.Machine

open Source (Block Header Statement)
open Debug (Steering)

variable {m n k : Machine} {s t : Statement} {next : Block}

/-- Execution has come to a statement. -/
def Visits (m : Machine) (s : Statement) : Prop :=
  m.phase = .arriving ∧ ∃ next, m.frame.rest.uncons? = some (s, next)

/-- Execution has come to a statement and pauses before it; where the client does not take that, the
program fails there. -/
def PausesHere (m : Machine) : Prop := (∃ s, m.Visits s) ∧ m.step.phase ≠ .ready

/-- A machine that is paused before a statement hears a command. -/
def Hears (m : Machine) (s : Statement) (command : Debug.Command) : Prop :=
  m.phase = .paused ∧ (∃ next, m.frame.rest.uncons? = some (s, next)) ∧
    ∃ session, m.world.session = some session ∧ session.readCommand.1 = .command command

/-- The command asks for a step: it is one, or moves to a cell that is there. -/
def AsksStep (m : Machine) (command : Debug.Command) : Prop :=
  Debug.Operation.ofName? command.operation = some .step ∨
    Debug.Operation.ofName? command.operation = some .move ∧
      ∃ cell, command.cell = some cell ∧ m.tape.inRange cell = true

/-- The statement that a machine stands at is still being executed. -/
def During (m n : Machine) : Prop := m.place <:+ n.place

theorem looks_step (visits : m.Visits s) : Looks m s m.step := by
  obtain ⟨arriving, next, first⟩ := visits
  have looks : m.step = m.look s := by simp only [step, arriving, first]
  exact looks ▸ looks_look s

/-- A pause is where a client is attached and one is asked for. -/
theorem pauses_iff (visits : m.Visits s) :
    m.PausesHere ↔ m.attached = true ∧ (m.steering.shouldPause m.site s.head.marked).1 = true := by
  constructor
  · rintro ⟨-, other⟩
    cases looks_step visits with
    | passes _ phase => exact absurd phase other
    | pauses _ _ attached _ armed => exact ⟨attached, armed⟩
  · rintro ⟨attached, armed⟩
    refine ⟨⟨s, visits⟩, fun ready => ?_⟩
    cases looks_step visits with
    | passes _ _ _ _ unarmed =>
      rw [unarmed attached] at armed
      exact Bool.noConfusion armed
    | pauses _ phase => rcases phase with phase | ⟨_, _, phase⟩ <;> simp [phase] at ready

/-! ## While the statement is executed -/

/-- Nothing that is asked for at a statement concerns one inside it. -/
structure Asked (m : Machine) (σ : Steering) : Prop where
  countdown : σ.countdown = 0
  transient : ∀ site ∈ σ.transient, site.length ≤ m.place.length
  carry : ∀ level count, σ.carry = some (level, count) → level = m.depth

/-- Execution is at a statement or inside it, and everything is asked for as it was there. -/
structure Inside (m : Machine) (σ : Steering) (n : Machine) : Prop where
  during : m.During n
  steering : n.steering = σ
  attached : n.attached = true
  unpaused : n.phase ≠ .paused
  standing : n.place = m.place → n.phase ≠ .arriving

/-- Execution has gone past a statement, and everything is asked for as it was there. -/
structure Left (m : Machine) (σ : Steering) (n : Machine) : Prop where
  frame : ∃ s next, m.frame.rest.uncons? = some (s, next) ∧ n.frame = m.frame.past next
  outer : n.outer = m.outer
  phase : n.phase = .arriving
  steering : n.steering = σ
  attached : n.attached = true

variable {σ : Steering}

theorem Left.not_during (left : Left m σ n) : ¬ m.During n := by
  intro during
  obtain ⟨s, next, -, frame⟩ := left.frame
  have same := during.eq_of_length (by simp [place, left.outer])
  have index := congrArg Frame.index (frame_of_place same)
  rw [frame] at index
  simp [Frame.past] at index

/-- What is deeper than a statement is inside it. -/
theorem inside_of_suffix {outer : List Frame} (out : n.outer = outer) (suffix : m.place <:+ outer)
    (steering : n.steering = σ) (attached : n.attached = true) (phase : n.phase ≠ .paused) :
    Inside m σ n where
  during := by
    have bottom : m.place <:+ n.outer := out ▸ suffix
    exact bottom.trans (List.suffix_cons _ _)
  steering := steering
  attached := attached
  unpaused := phase
  standing same := by
    have longer := suffix.length_le
    have length := congrArg List.length same
    rw [place, out, List.length_cons] at length
    omega

/-- Where a statement has not completed, execution is at it or deeper. -/
theorem Inside.cases (inside : Inside m σ n) : n.place = m.place ∨ m.place <:+ n.outer := by
  rcases List.suffix_cons_iff.mp inside.during with same | deeper
  · exact .inl same.symm
  · exact .inr deeper

theorem Inside.deeper (inside : Inside m σ n) (arriving : n.phase = .arriving) : m.place <:+ n.outer :=
  inside.cases.resolve_left fun same => inside.standing same arriving

/-- A statement inside is let through unless the run pauses there. -/
theorem Inside.visit (inside : Inside m σ n) (asked : Asked m σ) (visits : n.Visits t)
    (unpaused : ¬ n.PausesHere) : Inside m σ n.step := by
  cases looks_step visits with
  | passes place ready stands _ unarmed =>
    have passes := unarmed inside.attached
    rw [inside.steering, Steering.shouldPause, asked.countdown] at passes
    refine inside_of_suffix (outer_of_place place) (inside.deeper visits.1)
      (Prod.mk.inj passes).2.symm ((attached_congr stands).trans inside.attached) ?_
    simp [ready]
  | pauses _ _ attached _ armed => exact absurd ((pauses_iff visits).mpr ⟨attached, armed⟩) unpaused

/-- A block inside ends, and where it was the body of the statement, that has completed. -/
theorem Inside.ends (inside : Inside m σ n)
    (here : ∀ level count, σ.carry = some (level, count) → level = m.depth) (guided : n.Guided)
    (arriving : n.phase = .arriving) (last : n.frame.rest.uncons? = none) :
    Inside m σ n.step ∨ Left m σ n.step := by
  have deeper := inside.deeper arriving
  have ends : n.step = n.endBlock := by simp only [Machine.step, arriving, last]
  obtain ⟨goes, steering, world⟩ := ends_endBlock guided.placed arriving
  rw [← ends] at goes steering world
  -- the block that ends is not the one of the statement
  have kept : n.step.steering = σ := by
    rw [steering, inside.steering]
    refine Steering.blockEnded_elsewhere fun count carried => ?_
    have level := here _ _ carried
    have longer := deeper.length_le
    rw [place, List.length_cons] at longer
    rw [depth, depth] at level
    omega
  have attached : n.step.attached = true := by
    rw [Machine.attached, world]
    exact inside.attached
  cases goes with
  | halts place outcome halted =>
    exact .inl (inside_of_suffix (outer_of_place place) deeper kept attached (by simp [halted]))
  | again frame outer arriving =>
    exact .inl (inside_of_suffix outer deeper kept attached (by simp [arriving]))
  | @leaves parent outer s next around first frame out arriving =>
    rw [around] at deeper
    rcases List.suffix_cons_iff.mp deeper with same | deeper
    · obtain ⟨rfl, rfl⟩ := List.cons.inj same
      exact .inr ⟨⟨s, next, first, frame⟩, out, arriving, kept, attached⟩
    · exact .inl (inside_of_suffix out deeper kept attached (by simp [arriving]))

/-- The statement acts, or one inside it. -/
theorem Inside.acts (inside : Inside m σ n) (guided : n.Guided) (ready : n.phase = .ready) :
    Inside m σ n.step ∨ Left m σ n.step := by
  have acts : n.step = n.act := by simp only [Machine.step, ready]
  have does := does_act guided.placed ready
  have attached : n.step.attached = true :=
    (attached_congr (acts ▸ standing_act)).trans inside.attached
  rw [← acts] at does
  cases does with
  | stays place steering goes =>
    refine .inl ⟨?_, steering.trans inside.steering, attached, ?_, fun _ => ?_⟩
    · rw [During, place]
      exact inside.during
    · rcases goes with goes | ⟨_, _, goes⟩ <;> simp [goes]
    · rcases goes with goes | ⟨_, _, goes⟩ <;> simp [goes]
  | past first frame outer arriving steering =>
    have kept := steering.trans inside.steering
    rcases inside.cases with same | deeper
    · rw [frame_of_place same] at first frame
      exact .inr ⟨⟨_, _, first, frame⟩, outer.trans (outer_of_place same), arriving, kept, attached⟩
    · exact .inl (inside_of_suffix outer deeper kept attached (by simp [arriving]))
  | enters first frame outer arriving steering =>
    exact .inl (inside_of_suffix outer inside.during (steering.trans inside.steering) attached
      (by simp [arriving]))

/-- A step from inside a statement, unless it pauses, stays inside or goes past the statement. -/
theorem Inside.step (inside : Inside m σ n) (asked : Asked m σ) (guided : n.Guided)
    (unpaused : ¬ n.PausesHere) : Inside m σ n.step ∨ Left m σ n.step := by
  cases phase : n.phase with
  | halted outcome =>
    have same : n.step = n := by simp only [Machine.step, phase]
    rw [same]
    exact .inl inside
  | paused => exact absurd phase inside.unpaused
  | arriving =>
    cases first : n.frame.rest.uncons? with
    | some found => exact .inl (inside.visit asked ⟨phase, found.2, first⟩ unpaused)
    | none => exact inside.ends asked.carry guided phase first
  | ready => exact inside.acts guided phase

/-- Others leave execution where it is. -/
theorem Inside.others {world : World} (inside : Inside m σ n)
    (stands : world.standing = n.world.standing) : Inside m σ { n with world } :=
  ⟨inside.during, inside.steering, (attached_congr stands).trans inside.attached, inside.unpaused,
    inside.standing⟩

theorem Left.others {world : World} (left : Left m σ n) (stands : world.standing = n.world.standing) :
    Left m σ { n with world } :=
  ⟨left.frame, left.outer, left.phase, left.steering, (attached_congr stands).trans left.attached⟩

/-- While a statement is executed without a pause, and when it has just completed, everything is asked
for as before. -/
theorem Inside.through (inside : Inside m σ k) (asked : Asked m σ) (guided : k.Guided)
    (through : Through (fun n => m.During n ∧ ¬ n.PausesHere) k n) :
    n.Guided ∧ (Inside m σ n ∨ Left m σ n) := by
  refine through.keeps (q := fun n => n.Guided ∧ (Inside m σ n ∨ Left m σ n)) ?_ ?_
    ⟨guided, .inl inside⟩
  · rintro n ⟨during, unpaused⟩ ⟨guided, inside | left⟩
    · exact ⟨guided.step, inside.step asked guided unpaused⟩
    · exact absurd during left.not_during
  · rintro n world stands ⟨guided, inside | left⟩
    · exact ⟨guided.turn (.others world stands), .inl (inside.others stands)⟩
    · exact ⟨guided.turn (.others world stands), .inr (left.others stands)⟩

/-- Inside a statement only marked statements are paused at. -/
theorem Inside.pauses_iff (inside : Inside m σ n) (asked : Asked m σ) (visits : n.Visits t) :
    n.PausesHere ↔ t.head.marked = true := by
  have deeper := inside.deeper visits.1
  have unarmed : n.site ∉ σ.transient := by
    intro member
    have bound := asked.transient _ member
    have longer := deeper.length_le
    rw [site, around, List.length_cons, List.length_map] at bound
    omega
  rw [Machine.pauses_iff visits, inside.steering, Steering.shouldPause, asked.countdown]
  simp [inside.attached, Steering.isArmed, unarmed]

/-! ## When the statement has completed -/

/-- The first statement that execution comes to is paused at: the count is at one, or comes to one with
the end of this block, or the statement is here and armed. -/
structure Due (n : Machine) : Prop where
  attached : n.attached = true
  phase : n.phase = .arriving ∨ ∃ outcome, n.phase = .halted outcome
  asked : n.steering.countdown = 1 ∨
    n.steering.carry = some (n.depth, 1) ∧ n.frame.rest.uncons? = none ∨
    n.steering.countdown = 0 ∧ n.site ∈ n.steering.transient ∧ n.frame.rest.uncons? ≠ none

theorem Due.pauses (due : n.Due) (visits : n.Visits t) : n.PausesHere := by
  obtain ⟨-, next, first⟩ := id visits
  rw [pauses_iff visits]
  refine ⟨due.attached, ?_⟩
  rcases due.asked with last | ⟨-, ended⟩ | ⟨off, armed, -⟩
  · simp [Steering.shouldPause, last]
  · simp [first] at ended
  · simp [Steering.shouldPause, off, Steering.isArmed, armed]

theorem Due.step (due : n.Due) (guided : n.Guided) (unvisited : ∀ t, ¬ n.Visits t) : n.step.Due := by
  rcases due.phase with phase | ⟨outcome, phase⟩
  · cases first : n.frame.rest.uncons? with
    | some found => exact absurd ⟨phase, found.2, first⟩ (unvisited found.1)
    | none =>
      have ends : n.step = n.endBlock := by simp only [Machine.step, phase, first]
      obtain ⟨goes, steering, world⟩ := ends_endBlock guided.placed phase
      rw [← ends] at goes steering world
      refine ⟨?_, ?_, .inl ?_⟩
      · rw [Machine.attached, world]
        exact due.attached
      · cases goes with
        | halts _ outcome phase => exact .inr ⟨outcome, phase⟩
        | again _ _ phase | leaves _ _ _ _ phase => exact .inl phase
      · rw [steering, Steering.blockEnded]
        rcases due.asked with last | ⟨carried, -⟩ | ⟨-, -, here⟩
        · have idle : n.steering.carry = none :=
            guided.sound.single.resolve_left (by simp [last])
          simp [idle, last]
        · simp [carried]
        · exact absurd first here
  · have same : n.step = n := by simp only [Machine.step, phase]
    rwa [same]

theorem Due.others {world : World} (due : n.Due) (stands : world.standing = n.world.standing) :
    { n with world }.Due :=
  ⟨(attached_congr stands).trans due.attached, due.phase, due.asked⟩

/-- What is due stays due until execution comes to a statement. -/
theorem Due.through (due : k.Due) (guided : k.Guided)
    (through : Through (fun n => ∀ t, ¬ n.Visits t) k n) : n.Due := by
  refine (through.keeps (q := fun n => n.Guided ∧ n.Due) ?_ ?_ ⟨guided, due⟩).2
  · exact fun n unvisited ⟨guided, due⟩ => ⟨guided.step, due.step guided unvisited⟩
  · exact fun n world stands ⟨guided, due⟩ => ⟨guided.turn (.others world stands), due.others stands⟩

/-! ## Steps -/

/-- A command that is heard is answered where it is heard. -/
theorem Hears.answer {command : Debug.Command} (hears : m.Hears s command) :
    ∃ world, world.standing = m.world.standing ∧ m.step = { m with world }.answer s command := by
  obtain ⟨paused, ⟨next, first⟩, session, client, heard⟩ := hears
  have stands := standing_readCommand session (by simp [heard])
  refine ⟨{ m.world with session := some session.readCommand.2 }, ?_, ?_⟩
  · simp [World.standing, client, stands]
  · simp only [step, paused, first, hear, withSession, client, heard]

/-- A command that asks for a step lets the statement act and arms ahead by one. -/
theorem Hears.step {command : Debug.Command} (hears : m.Hears s command)
    (asks : m.AsksStep command) : m.step.place = m.place ∧ m.step.phase = .ready ∧
      m.step.steering = m.steering.armAhead m.frame.block.length m.frame.index m.around 1 ∧
      m.step.attached = m.attached := by
  obtain ⟨world, stands, stepped⟩ := hears.answer
  have attached (tape : Tape) : ({ m with tape, world }.armAhead 1).proceed.attached = m.attached :=
    attached_proceed.trans (attached_congr stands)
  rw [stepped, Machine.answer]
  rcases asks with steps | ⟨moves, cell, named, there⟩
  · rw [steps]
    exact ⟨rfl, rfl, rfl, attached m.tape⟩
  · obtain ⟨index, found⟩ := Option.isSome_iff_exists.mp there
    have sought : command.cell.map m.tape.seek = some (.ok { m.tape with cursor := index }) := by
      simp only [named, Option.map_some, Tape.seek, found]
    simp only [moves, sought]
    exact ⟨rfl, rfl, rfl, attached { m.tape with cursor := index }⟩

/-- What a step asks for at a statement concerns none inside it. -/
theorem Guided.asked (guided : m.Guided) (paused : m.phase = .paused) {distance : Nat}
    (near : distance = 1 ∨ distance = 2) :
    Asked m (m.steering.armAhead m.frame.block.length m.frame.index m.around distance) := by
  obtain ⟨-, off, idle⟩ := guided.paused paused
  obtain ⟨s, next, first⟩ := guided.placed.standing (.inl paused)
  have inside := guided.placed.frame.here first
  have ahead := guided.ahead (by simp [paused])
  rcases m.steering.armAhead_cases m.around inside near with ⟨target, -, -, armed⟩ | ⟨count, -, carried⟩
  · rw [armed]
    refine ⟨off, fun site member => ?_, by simp [Steering.arm, idle]⟩
    rcases Steering.mem_arm.mp member with rfl | member
    · simp [around, place]
    · exact (ahead site member).length_le
  · rw [carried]
    refine ⟨off, fun site member => (ahead site member).length_le, fun level count' same => ?_⟩
    obtain ⟨rfl, -⟩ := Prod.mk.inj (Option.some.inj same)
    simp [around, depth]

/-- What is left of a block past a statement: another statement, or the end. -/
theorem past_uncons (placed : m.frame.InPlace) (first : m.frame.rest.uncons? = some (s, next)) :
    next.uncons? ≠ none ↔ m.frame.index + 1 < m.frame.block.length := by
  have after := placed.past first
  constructor
  · intro more
    obtain ⟨⟨t, rest⟩, second⟩ := Option.ne_none_iff_exists'.mp more
    exact after.here second
  · intro room ended
    have full := after.ended ended
    simp only [Frame.past] at full
    omega

/-- A step that was asked for is due when the statement has completed. -/
theorem Left.due {before : Steering} (placed : m.frame.InPlace)
    (asked : σ = before.armAhead m.frame.block.length m.frame.index m.around 1)
    (off : before.countdown = 0) (left : Left m σ n) : n.Due := by
  obtain ⟨s, next, first, frame⟩ := left.frame
  have index : n.site = (m.frame.index + 1) :: m.around := by
    rw [site, around, frame, left.outer]
    rfl
  have rest : n.frame.rest = next := by rw [frame]; rfl
  refine ⟨left.attached, .inl left.phase, .inr ?_⟩
  rw [left.steering, index, rest, depth, left.outer, asked]
  unfold Steering.armAhead
  split
  next room =>
    refine .inr ⟨off, Steering.mem_arm.mpr (.inl rfl), ?_⟩
    exact (past_uncons placed first).mpr room
  next full =>
    have inside := placed.here first
    refine .inl ⟨?_, ?_⟩
    · simp only [around, List.length_map, Option.some.injEq, Prod.mk.injEq, true_and]
      omega
    · by_contra more
      exact full ((past_uncons placed first).mp more)

/-- A step at a pause, in any run. The statement is let through. While it is executed, a loop through all
of its iterations, the run pauses at the marked statements that execution comes to and at no other. When
it has completed without a pause, the run pauses at the first statement that execution comes to, wherever
that is. After the run has ended it neither comes to a statement nor pauses. -/
theorem step_pauses_next {program : Block} {tape : Tape} {world : World} {command : Debug.Command}
    (fresh : ¬ world.ShowsPause) (reached : (start program tape world).Later m)
    (hears : m.Hears s command) (asks : m.AsksStep command) :
    (m.step.phase = .ready ∧ m.step.place = m.place) ∧
    (∀ n t, Through (fun k => m.During k ∧ ¬ k.PausesHere) m.step n → m.During n → n.Visits t →
      (n.PausesHere ↔ t.head.marked = true)) ∧
    (∀ k, Through (fun k => m.During k ∧ ¬ k.PausesHere) m.step k → ¬ m.During k →
      (∃ next, m.frame.rest.uncons? = some (s, next) ∧ k.place = m.frame.past next :: m.outer) ∧
      ∀ n t, Through (fun k => ∀ t, ¬ k.Visits t) k n → n.Visits t → n.PausesHere) ∧
    (∀ n outcome, m.step.Later n → n.outcome? = some outcome →
      ∀ k, n.Later k → (∀ t, ¬ k.Visits t) ∧ ¬ k.PausesHere) := by
  have guided : m.Guided := (guided_start fresh).later reached
  have paused : m.phase = .paused := hears.1
  obtain ⟨attached, off, -⟩ := guided.paused paused
  obtain ⟨place, ready, steering, still⟩ := hears.step asks
  have asked := guided.asked paused (.inl rfl)
  rw [← steering] at asked
  have inside : Inside m m.step.steering m.step :=
    { during := ⟨[], place.symm⟩
      steering := rfl
      attached := still.trans attached
      unpaused := by simp [ready]
      standing := fun _ => by simp [ready] }
  refine ⟨⟨ready, place⟩, ?_, ?_, ?_⟩
  · intro n t through during visits
    rcases (inside.through asked guided.step through).2 with inside | left
    · exact inside.pauses_iff asked visits
    · exact absurd during left.not_during
  · intro k through outside
    obtain ⟨guided', inside | left⟩ := inside.through asked guided.step through
    · exact absurd inside.during outside
    · have due := left.due guided.placed.frame steering off
      obtain ⟨-, ⟨next, first⟩, -⟩ := hears
      obtain ⟨s', next', first', frame⟩ := left.frame
      obtain ⟨-, rfl⟩ := Prod.mk.inj (Option.some.inj (first.symm.trans first'))
      refine ⟨⟨next, first, ?_⟩, fun n t unvisited visits => ?_⟩
      · rw [Machine.place, frame, left.outer]
      · exact (due.through guided' unvisited).pauses visits
  · intro n outcome _ halted k later
    have ended := phase_of_halted (later.of_halted halted).1
    have unvisited (t : Statement) : ¬ k.Visits t := by
      rintro ⟨arriving, -⟩
      rw [ended] at arriving
      exact Phase.noConfusion arriving
    refine ⟨unvisited, ?_⟩
    rintro ⟨⟨t, visits⟩, -⟩
    exact unvisited t visits

/-- A client steps from the first of two statements, and the run pauses at the second one. -/
theorem step_pauses_next_second :
    let program : Block := .act ⟨⟨1, 1⟩, true⟩ .increment (.act ⟨⟨1, 7⟩, false⟩ .decrement .nil)
    let command : Debug.Command := { operation := .ofString "step" }
    let client : Debug.Session :=
      { state := .running, reader := { pending := [command.encode] } }
    let m := (start program (.blank Tape.standardSize) { session := some client }).step
    m.Hears (.act ⟨⟨1, 1⟩, true⟩ .increment) command ∧ m.AsksStep command ∧
      m.step.step.Visits (.act ⟨⟨1, 7⟩, false⟩ .decrement) ∧ m.step.step.PausesHere := by
  intro program command client m
  have fresh : ¬ World.ShowsPause { session := some client } := by
    rintro ⟨gone, paused⟩
    exact Debug.SessionState.noConfusion (Prod.mk.inj (Option.some.inj paused)).1
  have heard : ∃ session, m.world.session = some session ∧
      session.readCommand.1 = .command command := ⟨_, rfl, by decide +kernel⟩
  have hears : m.Hears (.act ⟨⟨1, 1⟩, true⟩ .increment) command := ⟨rfl, ⟨_, rfl⟩, heard⟩
  have asks : m.AsksStep command := .inl (by decide +kernel)
  have visits : m.step.step.Visits (.act ⟨⟨1, 7⟩, false⟩ .decrement) :=
    ⟨by decide +kernel, .nil, by decide +kernel⟩
  have outside : ¬ m.place <:+ m.step.step.place := by decide +kernel
  obtain ⟨⟨ready, place⟩, -, next, -⟩ := step_pauses_next fresh (later_step _) hears asks
  have during : m.During m.step := ⟨[], place.symm⟩
  have unpaused : ¬ m.step.PausesHere := by
    rintro ⟨⟨t, arriving, -⟩, -⟩
    rw [ready] at arriving
    exact Phase.noConfusion arriving
  exact ⟨hears, asks, visits,
    (next _ (.single (.step ⟨during, unpaused⟩)) outside).2 _ _ .refl visits⟩

end TapeLang.Machine

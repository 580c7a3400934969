import TapeLang.Proofs.Course

/-!
Where execution stands, and what a step does there. Execution stands in a stack of frames, each in place
(`Placed`). A step lets a statement act or pauses before it (`Looks`), ends a block (`Ends`), answers a
command (`Answers`), or acts (`Does`); each says where control goes, what becomes of the pause state, and
whether the client stays. So whoever follows a run through its pauses need not unfold a step again.
-/
namespace TapeLang

open Source (Action Block Header Statement)

/-! ## Frames -/

namespace Frame

variable {f : Frame} {s : Statement} {next : Block}

/-- What is left of the block starts at the index. -/
structure InPlace (f : Frame) : Prop where
  rest : f.rest.statements = f.block.statements.drop f.index
  bound : f.index ≤ f.block.length

theorem inPlace_enter (block : Block) : (enter block).InPlace := ⟨rfl, Nat.zero_le _⟩

theorem InPlace.here (placed : f.InPlace) (first : f.rest.uncons? = some (s, next)) :
    f.index < f.block.length := by
  have rest := congrArg List.length placed.rest
  rw [Block.eq_cons_of_uncons first, Block.statements_cons, List.length_drop,
    Block.length_statements, List.length_cons] at rest
  omega

theorem InPlace.ended (placed : f.InPlace) (first : f.rest.uncons? = none) :
    f.index = f.block.length := by
  have rest := congrArg List.length placed.rest
  rw [Block.eq_nil_of_uncons first, Block.statements, List.length_drop, Block.length_statements,
    List.length_nil] at rest
  exact Nat.le_antisymm placed.bound (Nat.le_of_sub_eq_zero rest.symm)

theorem InPlace.past (placed : f.InPlace) (first : f.rest.uncons? = some (s, next)) :
    (f.past next).InPlace := by
  refine ⟨?_, placed.here first⟩
  have rest := placed.rest
  rw [Block.eq_cons_of_uncons first, Block.statements_cons] at rest
  simp only [Frame.past]
  rw [← List.tail_drop, ← rest, List.tail_cons]

end Frame

/-- The session shows the program as paused. -/
def World.ShowsPause (w : World) : Prop := ∃ gone, w.standing = some (.paused, gone)

theorem World.not_showsPause {w : World} {session : Debug.Session} (client : w.session = some session)
    (unpaused : session.state ≠ .paused) : ¬ w.ShowsPause := by
  rintro ⟨gone, paused⟩
  rw [standing, client] at paused
  exact unpaused (Prod.mk.inj (Option.some.inj paused)).1

namespace Machine

variable {m n : Machine}

/-- The frames in execution, innermost first. -/
def place (m : Machine) : List Frame := m.frame :: m.outer

theorem frame_of_place (same : n.place = m.place) : n.frame = m.frame := (List.cons.inj same).1

theorem outer_of_place (same : n.place = m.place) : n.outer = m.outer := (List.cons.inj same).2

/-- Every frame is in place, the frames around stand at their loops, and a statement that is paused at or
about to act is there. -/
structure Placed (m : Machine) : Prop where
  frames : ∀ f ∈ m.place, f.InPlace
  loops : ∀ f ∈ m.outer, ∃ s next, f.rest.uncons? = some (s, next)
  standing : m.phase = .paused ∨ m.phase = .ready → ∃ s next, m.frame.rest.uncons? = some (s, next)

/-! ## What a step does -/

/-- Execution comes to a statement: it lets the statement act, or shows that it pauses there. -/
inductive Looks (m : Machine) (s : Statement) (n : Machine) : Prop where
  | passes (place : n.place = m.place) (phase : n.phase = .ready)
      (standing : n.world.standing = m.world.standing)
      (lone : m.attached = false → n.steering = m.steering)
      (unarmed : m.attached = true →
        m.steering.shouldPause m.site s.head.marked = (false, n.steering))
  | pauses (place : n.place = m.place)
      (phase : n.phase = .paused ∨ ∃ failure position, n.phase = .halted (.failed failure position))
      (attached : m.attached = true) (still : n.attached = true)
      (armed : (m.steering.shouldPause m.site s.head.marked).1 = true)
      (steering : n.steering = (m.steering.shouldPause m.site s.head.marked).2.entered m.site)

/-- A block is at its end: the program ends, or the loop around runs its body again or is left. -/
inductive Ends (m n : Machine) : Prop where
  | halts (place : n.place = m.place) (outcome : Outcome) (phase : n.phase = .halted outcome)
      (last : outcome = .completed → m.outer = [])
  | again (frame : n.frame = .enter m.frame.block) (outer : n.outer = m.outer)
      (phase : n.phase = .arriving)
  | leaves {parent : Frame} {outer : List Frame} {s : Statement} {next : Block}
      (around : m.outer = parent :: outer) (first : parent.rest.uncons? = some (s, next))
      (frame : n.frame = parent.past next)
      (out : n.outer = outer) (phase : n.phase = .arriving)

/-- A paused machine waits on, or fails, or lets its statement act, or leaves the loop around it. -/
inductive Answers (m n : Machine) : Prop where
  | waits (place : n.place = m.place) (phase : n.phase = .paused) (steering : n.steering = m.steering)
      (attached : n.attached = m.attached)
  | fails (place : n.place = m.place) (outcome : Outcome) (phase : n.phase = .halted outcome)
      (other : outcome ≠ .completed) (steering : n.steering = m.steering)
      (attached : n.attached = m.attached)
  | goes (place : n.place = m.place) (phase : n.phase = .ready) (shown : ¬ n.world.ShowsPause)
      (attached : n.attached = m.attached) (distance : Nat) (near : distance = 1 ∨ distance = 2)
      (steering : n.steering =
        m.steering.armAhead m.frame.block.length m.frame.index m.around distance)
  | forgets (place : n.place = m.place) (phase : n.phase = .ready) (shown : ¬ n.world.ShowsPause)
      (steering : n.steering = {})
  | quits (place : n.place = m.place) (phase : n.phase = .halted .steppedOut)
      (steering : n.steering = {})
  | leaves {parent : Frame} {outer : List Frame} {s : Statement} {next : Block}
      (around : m.outer = parent :: outer) (first : parent.rest.uncons? = some (s, next))
      (frame : n.frame = parent.past next)
      (out : n.outer = outer) (phase : n.phase = .arriving) (shown : ¬ n.world.ShowsPause)
      (attached : n.attached = m.attached) (steering : n.steering = { countdown := 1 })

/-- A statement acts: it waits or ends the run, is gone past, or is a loop whose body is entered. -/
inductive Does (m n : Machine) : Prop where
  | stays (place : n.place = m.place) (steering : n.steering = m.steering)
      (phase : n.phase = .ready ∨ ∃ outcome, outcome ≠ .completed ∧ n.phase = .halted outcome)
  | past {s : Statement} {next : Block} (first : m.frame.rest.uncons? = some (s, next))
      (frame : n.frame = m.frame.past next) (outer : n.outer = m.outer) (phase : n.phase = .arriving)
      (steering : n.steering = m.steering)
  | enters {head : Header} {body next : Block} (first : m.frame.rest = .loop head body next)
      (frame : n.frame = .enter body) (outer : n.outer = m.place) (phase : n.phase = .arriving)
      (steering : n.steering = m.steering)

/-! ### Sessions -/

theorem attached_of_standing {gone : Bool} {state : Debug.SessionState}
    (stands : m.world.standing = some (state, gone)) :
    m.attached = (!gone && state != .finished) := by
  obtain ⟨session, client, same⟩ := Option.map_eq_some_iff.mp stands
  rw [attached, client]
  simp only [Debug.Session.attached_eq, same]

/-- A state that is shown leaves the machine paused, or fails it. -/
theorem showState_shown {session : Debug.Session} (client : m.world.session = some session)
    (s : Statement) :
    (m.showState s).place = m.place ∧ (m.showState s).steering = m.steering ∧
      ((m.showState s).phase = .paused ∨
        ∃ failure position, (m.showState s).phase = .halted (.failed failure position)) ∧
      (m.showState s).world.standing = some (.paused, session.detached) := by
  have stands := session.standing_sendState (m.snapshot s)
  simp only [showState, withSession, client]
  split
  · exact ⟨rfl, rfl, .inl rfl, congrArg some stands⟩
  · exact ⟨rfl, rfl, .inr ⟨_, _, rfl⟩, congrArg some stands⟩

theorem looks_look (s : Statement) : Looks m s (m.look s) := by
  unfold look
  split
  next attached =>
    dsimp only
    split
    next armed =>
      cases client : m.world.session with
      | none => simp [Machine.attached, client] at attached
      | some session =>
        obtain ⟨place, steering, phase, stands⟩ := showState_shown (m := { m with
          steering := (m.steering.shouldPause m.site s.head.marked).2.entered m.site }) client s
        have there : session.detached = false := by
          simp only [Machine.attached, client, Debug.Session.attached, Bool.and_eq_true] at attached
          simpa using attached.1
        refine .pauses place phase attached ?_ armed steering
        rw [attached_of_standing stands, there]
        rfl
    next unarmed =>
      refine .passes rfl rfl rfl (fun lone => ?_) fun _ => ?_
      · rw [attached] at lone
        exact Bool.noConfusion lone
      · exact Prod.ext (Bool.eq_false_iff.mpr unarmed) rfl
  next lone =>
    exact .passes rfl rfl rfl (fun _ => rfl) fun attached => absurd attached lone

theorem ends_endBlock (placed : m.Placed) (arriving : m.phase = .arriving) :
    Ends m m.endBlock ∧ m.endBlock.steering = m.steering.blockEnded m.depth ∧
      m.endBlock.world = m.world := by
  unfold endBlock
  dsimp only
  split
  next last => exact ⟨.halts rfl _ rfl fun _ => last, rfl, rfl⟩
  next parent outer around =>
    split
    · exact ⟨.halts rfl _ rfl (by simp), rfl, rfl⟩
    · split
      · obtain ⟨s, next, first⟩ := placed.loops parent (by simp [around])
        simp only [first]
        exact ⟨.leaves around first rfl rfl rfl, rfl, rfl⟩
      · exact ⟨.again rfl rfl arriving, rfl, rfl⟩

theorem not_showsPause_proceed : ¬ m.proceed.world.ShowsPause := by
  rintro ⟨gone, stands⟩
  obtain ⟨session, client, same⟩ := Option.map_eq_some_iff.mp stands
  obtain ⟨session, -, rfl⟩ := Option.map_eq_some_iff.mp client
  rw [Debug.Session.standing_resume] at same
  have paused := (Prod.mk.inj same).1
  split at paused
  · simp at paused
  next other => exact other paused

theorem attached_proceed : m.proceed.attached = m.attached := by
  unfold attached proceed
  cases m.world.session with
  | none => rfl
  | some session =>
    simp only [Option.map_some, Debug.Session.attached_eq, Debug.Session.standing_resume]
    split
    next paused =>
      simp only [Debug.Session.standing, paused]
      cases session.detached <;> rfl
    next => rfl

theorem answers_answer {session : Debug.Session} (client : m.world.session = some session)
    (attached : m.attached = true) (placed : m.Placed) (paused : m.phase = .paused) (s : Statement)
    (c : Debug.Command) : Answers m (m.answer s c) := by
  have ignored : Answers m m := .waits rfl paused rfl rfl
  unfold answer
  split
  · exact ignored
  · exact .goes rfl rfl not_showsPause_proceed attached_proceed 1 (.inl rfl) rfl
  · exact .goes rfl rfl not_showsPause_proceed attached_proceed 2 (.inr rfl) rfl
  · split
    next tape _ =>
      exact .goes rfl rfl (not_showsPause_proceed (m := { m with tape }.armAhead 1))
        (attached_proceed (m := { m with tape }.armAhead 1)) 1 (.inl rfl) rfl
    next => exact ignored
  · exact .forgets rfl rfl not_showsPause_proceed rfl
  · unfold stepOut
    dsimp only
    split
    next last => exact .quits rfl rfl rfl
    next parent outer around =>
      obtain ⟨s, next, first⟩ := placed.loops parent (by
        rw [show m.outer = parent :: outer from around]
        exact List.mem_cons_self)
      simp only [first]
      exact .leaves around first rfl rfl rfl not_showsPause_proceed attached_proceed rfl
  · split
    · split
      next tape _ =>
        obtain ⟨place, steering, phase, stands⟩ := showState_shown (m := { m with tape }) client s
        have there : session.detached = false := by
          simp only [Machine.attached, client, Debug.Session.attached, Bool.and_eq_true] at attached
          simpa using attached.1
        have still : (showState { m with tape } s).attached = m.attached := by
          rw [attached_of_standing stands, there, attached]
          rfl
        rcases phase with phase | ⟨failure, position, phase⟩
        · exact .waits place phase steering still
        · exact .fails place _ phase (by simp) steering still
      next => exact ignored
    · exact ignored

theorem Answers.of_world {world : World} (answers : Answers { m with world } n)
    (attached : { m with world }.attached = m.attached) : Answers m n := by
  cases answers with
  | waits place phase steering same => exact .waits place phase steering (same.trans attached)
  | fails place outcome phase other steering same =>
    exact .fails place outcome phase other steering (same.trans attached)
  | goes place phase shown same distance near steering =>
    exact .goes place phase shown (same.trans attached) distance near steering
  | forgets place phase shown steering => exact .forgets place phase shown steering
  | quits place phase steering => exact .quits place phase steering
  | leaves around first frame out phase shown same steering =>
    exact .leaves around first frame out phase shown (same.trans attached) steering

/-- Waiting for a command leaves a session as it stands, unless the client is gone. -/
theorem standing_readCommand (session : Debug.Session) (there : session.readCommand.1 ≠ .gone) :
    session.readCommand.2.standing = session.standing := by
  unfold Debug.Session.readCommand at there ⊢
  rw [Debug.Session.standing_readCommandFrom, if_neg]
  cases heard : (session.readCommandFrom (session.reader.pending.length + 1)).1 <;>
    simp_all [Debug.Session.Heard.isGone]

theorem answers_hear (attached : m.attached = true) (placed : m.Placed) (paused : m.phase = .paused)
    (s : Statement) : Answers m (m.hear s) := by
  cases client : m.world.session with
  | none => simp [Machine.attached, client] at attached
  | some session =>
    have stands := standing_readCommand session
    have left := Debug.Session.standing_readCommandFrom session (session.reader.pending.length + 1)
    simp only [hear, withSession, client]
    unfold Debug.Session.readCommand at stands ⊢
    generalize session.readCommandFrom _ = read at stands left
    obtain ⟨heard, later⟩ := read
    have same (there : heard ≠ .gone) :
        { m with world := { m.world with session := some later } }.attached = m.attached :=
      attached_congr (by simp [World.standing, client, stands there])
    cases heard with
    | waiting => exact .waits rfl paused rfl (same (by simp))
    | gone =>
      refine .forgets rfl rfl ?_ rfl
      rintro ⟨gone, stands⟩
      have running : later.standing = (.running, true) := left
      simp only [World.standing, Option.map_some, Option.some.injEq, running] at stands
      simp at stands
    | failed error => exact .fails rfl _ rfl (by simp) rfl (same (by simp))
    | refused fault =>
      cases fault <;> exact .fails rfl _ rfl (by simp) rfl (same (by simp))
    | command command =>
      have kept := same (by simp)
      have answers := answers_answer (m := { m with world := { m.world with session := some later } })
        rfl (kept.trans attached) ⟨placed.frames, placed.loops, placed.standing⟩ paused s command
      exact answers.of_world kept

/-! ### Statements that act -/

theorem does_stop (world : World) (head : Header) (reason : Stop) :
    Does m ({ m with world }.stop head reason) := by
  cases reason <;> exact .stays rfl rfl (.inr ⟨_, by simp, rfl⟩)

theorem does_advance {s : Statement} {next : Block} (first : m.frame.rest.uncons? = some (s, next))
    (tape : Tape) (world : World) : Does m ({ m with tape, world }.advance next) :=
  .past first rfl rfl rfl rfl

theorem Outputs.does {s : Statement} {head : Header} {next : Block} (outputs : m.Outputs head next n)
    (first : m.frame.rest.uncons? = some (s, next)) (ready : m.phase = .ready) : Does m n := by
  cases outputs with
  | sends => exact does_advance first _ _
  | waits => exact .stays rfl rfl (.inl ready)
  | fails => exact does_stop _ head _
  | misuses => exact does_stop _ head _

theorem does_perform {s : Statement} {next : Block} (first : m.frame.rest.uncons? = some (s, next))
    (ready : m.phase = .ready) (head : Header) (action : Action) :
    Does m (m.perform head action next) := by
  cases action with
  | increment | decrement | clear | push => exact does_advance first _ _
  | moveRight | moveLeft =>
    simp only [perform]
    split
    · exact does_advance first _ _
    · exact does_stop _ head _
  | output => exact (outputs_output m head next).does first ready
  | input =>
    simp only [perform, input, withWorld_eq]
    split
    · exact does_advance first _ _
    · exact does_stop _ head _
  | switch =>
    simp only [perform, withWorld_eq]
    split
    · exact does_advance first _ _
    · exact does_stop _ head _
  | none => exact .stays rfl rfl (.inr ⟨_, by simp, rfl⟩)

theorem does_act (placed : m.Placed) (ready : m.phase = .ready) : Does m m.act := by
  obtain ⟨s, next, first⟩ := placed.standing (.inr ready)
  have broken : Does m (m.halt (.broken (.tape .noCell))) :=
    .stays rfl rfl (.inr ⟨_, by simp, rfl⟩)
  unfold act
  split
  next rest => simp [rest, Block.uncons?] at first
  next head action next rest =>
    split
    · exact broken
    · exact does_perform (s := .act head action) (by rw [rest]; rfl) ready head action
  next head body next rest =>
    split
    · exact broken
    · split
      · exact does_advance (s := .loop head body) (by rw [rest]; rfl) _ _
      · exact .enters rest rfl rfl rfl rfl

/-! ## Places -/

theorem placed_start (program : Block) (tape : Tape) (world : World) :
    (start program tape world).Placed where
  frames f member := by
    obtain rfl := List.mem_singleton.mp member
    exact Frame.inPlace_enter program
  loops := by simp [start]
  standing := by simp [start]

theorem Placed.frame (placed : m.Placed) : m.frame.InPlace := placed.frames _ List.mem_cons_self

theorem Placed.outer (placed : m.Placed) : ∀ f ∈ m.outer, f.InPlace :=
  fun f member => placed.frames f (List.mem_cons_of_mem _ member)

/-- A machine at the same place that has not come to act or to pause. -/
theorem Placed.of_place (placed : m.Placed) (place : n.place = m.place)
    (standing : n.phase = .paused ∨ n.phase = .ready →
      ∃ s next, m.frame.rest.uncons? = some (s, next)) : n.Placed where
  frames := by rw [place]; exact placed.frames
  loops := by rw [outer_of_place place]; exact placed.loops
  standing stands := by rw [frame_of_place place]; exact standing stands

/-- A machine that has come to a frame. -/
theorem placed_arriving {outer : List Frame} (frame : n.frame.InPlace) (out : n.outer = outer)
    (around : ∀ f ∈ outer, f.InPlace) (loops : ∀ f ∈ outer, ∃ s next, f.rest.uncons? = some (s, next))
    (phase : n.phase = .arriving) : n.Placed where
  frames f member := by
    rcases List.mem_cons.mp member with rfl | member
    · exact frame
    · exact around f (out ▸ member)
  loops := by rw [out]; exact loops
  standing := by simp [phase]

/-- A machine that has left a loop. -/
theorem Placed.leaves (placed : m.Placed) {parent : Frame} {outer : List Frame} {s : Statement}
    {next : Block} (around : m.outer = parent :: outer) (first : parent.rest.uncons? = some (s, next))
    (frame : n.frame = parent.past next) (out : n.outer = outer) (phase : n.phase = .arriving) :
    n.Placed := by
  have member {f : Frame} (found : f ∈ outer) : f ∈ m.outer := by
    rw [around]
    exact List.mem_cons_of_mem _ found
  have parent : parent.InPlace := placed.outer parent (by simp [around])
  exact placed_arriving (by rw [frame]; exact parent.past first) out
    (fun f found => placed.outer f (member found)) (fun f found => placed.loops f (member found)) phase

end Machine
end TapeLang

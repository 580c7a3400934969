import TapeLang.Proofs.Steering.Control

/-!
The pause state of a run. What commands asked for is kept with the stack of frames: each statement that is
armed lies ahead in a block of it (`Ahead`), and what is carried to the end of a block goes when the block
does (`Guided`). So nothing that was asked for outlives the block that it was asked in.
-/
namespace TapeLang

open Source (Action Block Header Statement)
open Debug (Steering)

/-- The site of a statement that is still to come in the block of one of the frames. -/
inductive Ahead : List Frame → Block.Site → Prop where
  | here {f : Frame} {outer : List Frame} {index : Nat} (later : f.index < index)
      (inside : index < f.block.length) : Ahead (f :: outer) (index :: outer.map (·.index))
  | around {f : Frame} {outer : List Frame} {site : Block.Site} (ahead : Ahead outer site) :
      Ahead (f :: outer) site

namespace Ahead

variable {f : Frame} {outer frames : List Frame} {site : Block.Site} {s : Statement} {next : Block}

theorem length_le (ahead : Ahead frames site) : site.length ≤ frames.length := by
  induction ahead with
  | here => simp
  | around _ ih => exact Nat.le_succ_of_le ih

/-- A site ahead in the frames around a block is no site in that block. -/
theorem not_suffix (ahead : Ahead frames site) : ¬ frames.map (·.index) <:+ site := by
  intro suffix
  cases ahead with
  | here later inside =>
    have same := suffix.eq_of_length (by simp)
    rw [List.map_cons] at same
    exact Nat.ne_of_lt later (List.cons.inj same).1
  | around ahead =>
    have longer := suffix.length_le
    have bound := ahead.length_le
    rw [List.length_map, List.length_cons] at longer
    omega

/-- Nothing is ahead in a block that is at its end. -/
theorem ended (ahead : Ahead (f :: outer) site) (ended : f.index = f.block.length) :
    Ahead outer site := by
  cases ahead with
  | here later inside => omega
  | around ahead => exact ahead

/-- When a block goes past a statement, the site that comes next is the one that is no longer ahead. -/
theorem past (ahead : Ahead (f :: outer) site) (next : Block) :
    Ahead (f.past next :: outer) site ∨
      site = (f.index + 1) :: outer.map (·.index) ∧ f.index + 1 < f.block.length := by
  cases ahead with
  | @here _ _ index later inside =>
    by_cases following : index = f.index + 1
    · subst following
      exact .inr ⟨rfl, inside⟩
    · exact .inl (.here (Nat.lt_of_le_of_ne later (Ne.symm following)) inside)
  | around ahead => exact .inl (.around ahead)

end Ahead

/-! ## Pause states -/

namespace Debug.Steering

variable {s : Steering} {site : Block.Site} {marked : Bool}

/-- What arming ahead does: it arms a statement further on in the block, or carries a count of one or
two past its end. -/
theorem armAhead_cases (s : Steering) {length index distance : Nat} (around : Block.Site)
    (inside : index < length) (near : distance = 1 ∨ distance = 2) :
    (∃ target, index < target ∧ target < length ∧
      s.armAhead length index around distance = s.arm (target :: around)) ∨
    ∃ count, (count = 1 ∨ count = 2) ∧
      s.armAhead length index around distance = { s with carry := some (around.length, count) } := by
  unfold armAhead
  split
  next room => exact .inl ⟨_, by omega, room, rfl⟩
  next => exact .inr ⟨_, by omega, rfl⟩

theorem mem_arm {other : Block.Site} : other ∈ (s.arm site).transient ↔
    other = site ∨ other ∈ s.transient := by
  unfold arm
  dsimp only
  split
  next held =>
    have member : site ∈ s.transient := by simpa using held
    exact ⟨.inr, fun found => found.elim (fun same => same ▸ member) id⟩
  next => exact List.mem_cons

theorem mem_entered {other : Block.Site} : other ∈ (s.entered site).transient ↔
    other ∈ s.transient ∧ other ≠ site := by
  simp [entered, consume]

theorem unarmed_of_shouldPause (passes : (s.shouldPause site marked).1 = false) :
    site ∉ s.transient := by
  unfold shouldPause at passes
  split at passes
  · simp only [isArmed, Bool.or_eq_false_iff] at passes
    simpa using passes.2
  · simp at passes
  · simp only [isArmed, Bool.or_eq_false_iff] at passes
    simpa using passes.2

theorem transient_shouldPause (s : Steering) (site : Block.Site) (marked : Bool) :
    (s.shouldPause site marked).2.transient = s.transient := by
  unfold shouldPause
  split <;> rfl

theorem carry_shouldPause (s : Steering) (site : Block.Site) (marked : Bool) :
    (s.shouldPause site marked).2.carry = s.carry := by
  unfold shouldPause
  split <;> rfl

theorem countdown_shouldPause (s : Steering) (site : Block.Site) (marked : Bool) :
    (s.shouldPause site marked).2.countdown ≤ s.countdown := by
  unfold shouldPause
  split
  next off => exact Nat.le_refl _
  next => exact Nat.zero_le _
  next last =>
    rw [last]
    exact Nat.le_succ _

theorem transient_blockEnded (s : Steering) (depth : Nat) :
    (s.blockEnded depth).transient = s.transient := by
  unfold blockEnded
  split
  · split <;> rfl
  · rfl

/-- The end of a block does nothing to what is carried to the end of another. -/
theorem blockEnded_elsewhere {depth : Nat} (elsewhere : ∀ count, s.carry ≠ some (depth, count)) :
    s.blockEnded depth = s := by
  unfold blockEnded
  split
  next level count carried =>
    rw [if_neg]
    rintro rfl
    exact elsewhere count carried
  next => rfl

/-- What counts in a pause state, at a depth: a countdown and a carry are not active together, they
count at most two, and a carry belongs to a block that is not left. -/
structure Sound (s : Steering) (depth : Nat) : Prop where
  single : s.countdown = 0 ∨ s.carry = none
  countdown : s.countdown ≤ 2
  carry : ∀ level count, s.carry = some (level, count) → level ≤ depth ∧ (count = 1 ∨ count = 2)

variable {depth deeper : Nat}

theorem sound_empty (depth : Nat) : Sound {} depth := ⟨.inl rfl, Nat.zero_le 2, by simp⟩

theorem Sound.mono (sound : s.Sound depth) (within : depth ≤ deeper) : s.Sound deeper :=
  ⟨sound.single, sound.countdown, fun level count carried =>
    ⟨Nat.le_trans (sound.carry level count carried).1 within,
      (sound.carry level count carried).2⟩⟩

theorem Sound.shouldPause (sound : s.Sound depth) (site : Block.Site) (marked : Bool) :
    (s.shouldPause site marked).2.Sound depth := by
  have less := s.countdown_shouldPause site marked
  have same := s.carry_shouldPause site marked
  refine ⟨?_, Nat.le_trans less sound.countdown, by rw [same]; exact sound.carry⟩
  rcases sound.single with off | idle
  · exact .inl (Nat.le_zero.mp (off ▸ less))
  · exact .inr (same.trans idle)

theorem sound_entered (s : Steering) (site : Block.Site) (depth : Nat) :
    (s.entered site).Sound depth :=
  ⟨.inl rfl, Nat.zero_le 2, by simp [entered]⟩

/-- What was carried to the end of a block is counted from there on, and a carry that is left belongs
to a block around. -/
theorem Sound.blockEnded (sound : s.Sound depth) :
    (s.blockEnded depth).Sound depth ∧
      ∀ level count, (s.blockEnded depth).carry = some (level, count) → level < depth := by
  unfold Steering.blockEnded
  split
  next level count carried =>
    have bounds := sound.carry level count carried
    split
    next same =>
      refine ⟨⟨.inr rfl, ?_, by simp⟩, by simp⟩
      rcases bounds.2 with rfl | rfl <;> simp
    next other =>
      refine ⟨sound, fun level' count' carried' => ?_⟩
      rw [carried] at carried'
      obtain ⟨rfl, -⟩ := Prod.mk.inj (Option.some.inj carried')
      exact Nat.lt_of_le_of_ne bounds.1 other
  next idle => exact ⟨sound, by simp [idle]⟩

theorem Sound.armAhead (sound : s.Sound depth) (off : s.countdown = 0) {length index distance : Nat}
    {around : Block.Site} (level : around.length = depth) (inside : index < length)
    (near : distance = 1 ∨ distance = 2) :
    (s.armAhead length index around distance).Sound depth := by
  rcases s.armAhead_cases around inside near with ⟨target, -, -, armed⟩ | ⟨count, bounds, carried⟩
  · rw [armed]
    exact ⟨sound.single, sound.countdown, sound.carry⟩
  · rw [carried]
    refine ⟨.inl off, sound.countdown, fun level' count' same => ?_⟩
    obtain ⟨rfl, rfl⟩ := Prod.mk.inj (Option.some.inj same)
    exact ⟨Nat.le_of_eq level, bounds⟩

/-- What is armed ahead is armed in the same block, or was armed before. -/
theorem mem_armAhead {length index distance : Nat} {around other : Block.Site} (inside : index < length)
    (near : distance = 1 ∨ distance = 2)
    (member : other ∈ (s.armAhead length index around distance).transient) :
    other ∈ s.transient ∨ ∃ target, index < target ∧ target < length ∧ other = target :: around := by
  rcases s.armAhead_cases around inside near with ⟨target, later, room, armed⟩ | ⟨count, -, carried⟩
  · rw [armed] at member
    rcases mem_arm.mp member with rfl | member
    · exact .inr ⟨target, later, room, rfl⟩
    · exact .inl member
  · rw [carried] at member
    exact .inl member

end Debug.Steering

namespace Machine

variable {m n : Machine}

/-! ## What commands asked for -/

/-- The pause state of a machine is in order. What is armed is still to come in a block in execution, or
is the statement that execution comes to. A block begins with nothing armed in it and nothing carried to
its end. A paused machine has a client and nothing that counts; without a client nothing is asked for;
and the session shows no pause where there is none. -/
structure Guided (m : Machine) : Prop where
  placed : m.Placed
  sound : m.steering.Sound m.depth
  armed : ∀ site ∈ m.steering.transient, Ahead m.place site ∨
    m.phase = .arriving ∧ site = m.site ∧ m.frame.index < m.frame.block.length
  begun : m.phase = .arriving → m.frame.index = 0 →
    (∀ site ∈ m.steering.transient, Ahead m.outer site) ∧
      ∀ level count, m.steering.carry = some (level, count) → level < m.depth
  paused : m.phase = .paused →
    m.attached = true ∧ m.steering.countdown = 0 ∧ m.steering.carry = none
  lone : m.attached = false → m.steering = {}
  shown : m.phase = .arriving ∨ m.phase = .ready → ¬ m.world.ShowsPause
  completed : m.phase = .halted .completed →
    m.steering.transient = [] ∧ m.steering.carry = none

variable {s : Statement} {next : Block}

/-- A machine of which nothing is asked. -/
theorem guided_empty (placed : m.Placed) (steering : m.steering = {})
    (paused : m.phase ≠ .paused)
    (shown : m.phase = .arriving ∨ m.phase = .ready → ¬ m.world.ShowsPause) : m.Guided where
  placed := placed
  sound := by rw [steering]; exact Steering.sound_empty _
  armed := by simp [steering]
  begun := by simp [steering]
  paused now := absurd now paused
  lone _ := steering
  shown := shown
  completed _ := by simp [steering]

theorem guided_start {program : Block} {tape : Tape} {world : World}
    (shown : ¬ world.ShowsPause) : (start program tape world).Guided :=
  guided_empty (placed_start program tape world) rfl (by simp [start]) fun _ => shown

/-- Everything that is armed where a statement is paused at or about to act is still to come. -/
theorem Guided.ahead (guided : m.Guided) (standing : m.phase ≠ .arriving) :
    ∀ site ∈ m.steering.transient, Ahead m.place site := by
  intro site member
  rcases guided.armed site member with ahead | ⟨arriving, -⟩
  · exact ahead
  · exact absurd arriving standing

/-- Nothing is armed in a block that is at its end. -/
theorem Guided.ended (guided : m.Guided) (last : m.frame.rest.uncons? = none) :
    ∀ site ∈ m.steering.transient, Ahead m.outer site := by
  intro site member
  have ended := guided.placed.frame.ended last
  rcases guided.armed site member with ahead | ⟨-, -, inside⟩
  · exact ahead.ended ended
  · omega

/-- What is armed stays in order when a block goes past a statement. -/
theorem armed_past {f : Frame} {outer : List Frame} (frame : n.frame = f.past next)
    (out : n.outer = outer) (phase : n.phase = .arriving) {site : Block.Site}
    (ahead : Ahead (f :: outer) site) : Ahead n.place site ∨
      n.phase = .arriving ∧ site = n.site ∧ n.frame.index < n.frame.block.length := by
  rcases ahead.past next with ahead | ⟨here, inside⟩
  · exact .inl (by rw [place, frame, out]; exact ahead)
  · refine .inr ⟨phase, ?_, ?_⟩
    · rw [here, Machine.site, around, frame, out]
      rfl
    · rw [frame]
      exact inside

theorem Guided.looks (guided : m.Guided) (arriving : m.phase = .arriving)
    (first : m.frame.rest.uncons? = some (s, next)) (looks : Looks m s n) : n.Guided := by
  have standing : ∃ s next, m.frame.rest.uncons? = some (s, next) := ⟨s, next, first⟩
  cases looks with
  | passes place phase stands lone unarmed =>
    have attached : n.attached = m.attached := attached_congr stands
    have left : n.steering.Sound m.depth ∧ n.steering.transient = m.steering.transient ∧
        m.site ∉ m.steering.transient := by
      cases client : m.attached with
      | false =>
        have alone := guided.lone client
        rw [lone client, alone]
        exact ⟨Steering.sound_empty _, rfl, List.not_mem_nil⟩
      | true =>
        have passes := unarmed client
        have sound := guided.sound.shouldPause m.site s.head.marked
        have transient := m.steering.transient_shouldPause m.site s.head.marked
        rw [passes] at sound transient
        exact ⟨sound, transient, Steering.unarmed_of_shouldPause (congrArg Prod.fst passes)⟩
    obtain ⟨sound, transient, away⟩ := left
    have ahead : ∀ site ∈ n.steering.transient, Ahead m.place site := by
      intro site member
      rw [transient] at member
      rcases guided.armed site member with ahead | ⟨-, here, -⟩
      · exact ahead
      · exact absurd (here ▸ member) away
    exact {
      placed := guided.placed.of_place place fun _ => standing
      sound := by rw [depth, outer_of_place place]; exact sound
      armed := fun site member => .inl (by rw [place]; exact ahead site member)
      begun := by simp [phase]
      paused := by simp [phase]
      lone := fun alone => by
        rw [attached] at alone
        rw [lone alone, guided.lone alone]
      shown := fun _ => by
        rintro ⟨gone, paused⟩
        exact guided.shown (.inl arriving) ⟨gone, stands ▸ paused⟩
      completed := by simp [phase] }
  | pauses place phase attached still armed steering =>
    have ahead : ∀ site ∈ n.steering.transient, Ahead m.place site := by
      intro site member
      rw [steering] at member
      obtain ⟨member, elsewhere⟩ := Steering.mem_entered.mp member
      rw [Steering.transient_shouldPause] at member
      rcases guided.armed site member with ahead | ⟨-, here, -⟩
      · exact ahead
      · exact absurd here elsewhere
    exact {
      placed := guided.placed.of_place place fun _ => standing
      sound := by rw [steering]; exact Steering.sound_entered _ _ _
      armed := fun site member => .inl (by rw [place]; exact ahead site member)
      begun := by rcases phase with phase | ⟨_, _, phase⟩ <;> simp [phase]
      paused := fun _ => by
        rw [steering]
        exact ⟨still, rfl, rfl⟩
      lone := fun alone => by simp [still] at alone
      shown := by rcases phase with phase | ⟨_, _, phase⟩ <;> simp [phase]
      completed := by rcases phase with phase | ⟨_, _, phase⟩ <;> simp [phase] }

/-- What is left where a block at its end was left for the loop around it. -/
theorem Guided.leaves (guided : m.Guided) {parent : Frame} {outer : List Frame}
    (around : m.outer = parent :: outer) (first : parent.rest.uncons? = some (s, next))
    (frame : n.frame = parent.past next) (out : n.outer = outer) (phase : n.phase = .arriving)
    (sound : n.steering.Sound n.depth) (ahead : ∀ site ∈ n.steering.transient, Ahead m.outer site)
    (lone : n.attached = false → n.steering = {}) (shown : ¬ n.world.ShowsPause) : n.Guided where
  placed := guided.placed.leaves around first frame out phase
  sound := sound
  armed site member := armed_past frame out phase (around ▸ ahead site member)
  begun _ first := by simp [frame, Frame.past] at first
  paused := by simp [phase]
  lone := lone
  shown _ := shown
  completed := by simp [phase]

theorem Guided.ends (guided : m.Guided) (arriving : m.phase = .arriving)
    (last : m.frame.rest.uncons? = none) (ends : Ends m n)
    (steering : n.steering = m.steering.blockEnded m.depth) (world : n.world = m.world) :
    n.Guided := by
  obtain ⟨sound, shallow⟩ := guided.sound.blockEnded
  rw [← steering] at sound shallow
  have ahead : ∀ site ∈ n.steering.transient, Ahead m.outer site := by
    rw [steering, Steering.transient_blockEnded]
    exact guided.ended last
  have attached : n.attached = m.attached := by rw [Machine.attached, Machine.attached, world]
  have lone (alone : n.attached = false) : n.steering = {} := by
    rw [attached] at alone
    rw [steering, guided.lone alone]
    rfl
  have shown : ¬ n.world.ShowsPause := by
    rw [world]
    exact guided.shown (.inl arriving)
  cases ends with
  | halts place outcome phase done =>
    exact {
      placed := guided.placed.of_place place (by simp [phase])
      sound := by rw [depth, outer_of_place place]; exact sound
      armed := fun site member => .inl (by rw [place]; exact (ahead site member).around)
      begun := by simp [phase]
      paused := by simp [phase]
      lone := lone
      shown := fun _ => shown
      completed := fun completed => by
        have outermost := done (Phase.halted.inj (phase.symm.trans completed))
        have top : m.depth = 0 := by rw [depth, outermost, List.length_nil]
        rw [outermost] at ahead
        have unarmed : n.steering.transient = [] :=
          List.eq_nil_iff_forall_not_mem.mpr fun site member => by cases ahead site member
        have idle : n.steering.carry = none := by
          refine Option.eq_none_iff_forall_ne_some.mpr fun carry carried => ?_
          obtain ⟨level, count⟩ := carry
          have := shallow level count carried
          omega
        exact ⟨unarmed, idle⟩ }
  | again frame outer phase =>
    exact {
      placed := placed_arriving (by rw [frame]; exact Frame.inPlace_enter _) outer guided.placed.outer
        guided.placed.loops phase
      sound := by rw [depth, outer]; exact sound
      armed := fun site member => .inl (by rw [place, outer]; exact (ahead site member).around)
      begun := fun _ _ => by
        rw [depth, outer]
        exact ⟨ahead, shallow⟩
      paused := by simp [phase]
      lone := lone
      shown := fun _ => shown
      completed := by simp [phase] }
  | @leaves parent outer _ _ around first frame out phase =>
    have depth : m.depth = outer.length + 1 := by rw [Machine.depth, around, List.length_cons]
    have inside : n.depth = outer.length := by rw [Machine.depth, out]
    refine guided.leaves around first frame out phase ?_ ahead lone shown
    refine ⟨sound.single, sound.countdown, fun level count carried => ⟨?_, ?_⟩⟩
    · have := shallow level count carried
      omega
    · exact (sound.carry level count carried).2

theorem Guided.answers (guided : m.Guided) (paused : m.phase = .paused) (answers : Answers m n) :
    n.Guided := by
  obtain ⟨attached, off, idle⟩ := guided.paused paused
  have ahead := guided.ahead (by simp [paused])
  have standing := guided.placed.standing (.inl paused)
  have ⟨s, next, first⟩ := standing
  have inside := guided.placed.frame.here first
  cases answers with
  | waits place phase steering same =>
    exact {
      placed := guided.placed.of_place place fun _ => standing
      sound := by rw [steering, depth, outer_of_place place]; exact guided.sound
      armed := fun site member => .inl (by rw [place]; exact ahead site (steering ▸ member))
      begun := by simp [phase]
      paused := fun _ => by rw [same, steering]; exact ⟨attached, off, idle⟩
      lone := fun alone => by simp [same, attached] at alone
      shown := by simp [phase]
      completed := by simp [phase] }
  | fails place outcome phase other steering same =>
    exact {
      placed := guided.placed.of_place place fun _ => standing
      sound := by rw [steering, depth, outer_of_place place]; exact guided.sound
      armed := fun site member => .inl (by rw [place]; exact ahead site (steering ▸ member))
      begun := by simp [phase]
      paused := by simp [phase]
      lone := fun alone => by simp [same, attached] at alone
      shown := by simp [phase]
      completed := fun completed => absurd (Phase.halted.inj (phase.symm.trans completed)) other }
  | goes place phase shown same distance near steering =>
    have level : m.around.length = m.depth := List.length_map _
    have sound := guided.sound.armAhead off level inside near
    rw [← steering] at sound
    exact {
      placed := guided.placed.of_place place fun _ => standing
      sound := by rw [depth, outer_of_place place]; exact sound
      armed := fun site member => by
        rw [steering] at member
        rw [place]
        rcases Steering.mem_armAhead inside near member with member | ⟨target, later, room, rfl⟩
        · exact .inl (ahead site member)
        · exact .inl (.here later room)
      begun := by simp [phase]
      paused := by simp [phase]
      lone := fun alone => by simp [same, attached] at alone
      shown := fun _ => shown
      completed := by simp [phase] }
  | forgets place phase shown steering =>
    exact guided_empty (guided.placed.of_place place fun _ => standing) steering (by simp [phase])
      fun _ => shown
  | quits place phase steering =>
    exact guided_empty (guided.placed.of_place place fun _ => standing) steering (by simp [phase])
      (by simp [phase])
  | leaves around first frame out phase shown same steering =>
    refine guided.leaves around first frame out phase ?_ (by simp [steering]) ?_ shown
    · rw [steering]
      exact ⟨.inr rfl, by simp, by simp⟩
    · intro alone
      simp [same, attached] at alone

theorem Guided.does (guided : m.Guided) (ready : m.phase = .ready) (does : Does m n)
    (stands : n.world.standing = m.world.standing) : n.Guided := by
  have attached : n.attached = m.attached := attached_congr stands
  have ahead := guided.ahead (by simp [ready])
  have shown : ¬ n.world.ShowsPause := by
    rintro ⟨gone, paused⟩
    exact guided.shown (.inr ready) ⟨gone, stands ▸ paused⟩
  have lone (steering : n.steering = m.steering) (alone : n.attached = false) : n.steering = {} := by
    rw [attached] at alone
    rw [steering, guided.lone alone]
  cases does with
  | stays place steering phase =>
    exact {
      placed := guided.placed.of_place place fun _ => guided.placed.standing (.inr ready)
      sound := by rw [steering, depth, outer_of_place place]; exact guided.sound
      armed := fun site member => .inl (by rw [place]; exact ahead site (steering ▸ member))
      begun := by rcases phase with phase | ⟨_, _, phase⟩ <;> simp [phase]
      paused := by rcases phase with phase | ⟨_, _, phase⟩ <;> simp [phase]
      lone := lone steering
      shown := fun _ => shown
      completed := fun completed => by
        rcases phase with phase | ⟨outcome, other, phase⟩
        · simp [phase] at completed
        · exact absurd (Phase.halted.inj (phase.symm.trans completed)) other }
  | past first frame outer phase steering =>
    exact {
      placed := placed_arriving (by rw [frame]; exact guided.placed.frame.past first) outer
        guided.placed.outer guided.placed.loops phase
      sound := by rw [steering, depth, outer]; exact guided.sound
      armed := fun site member => armed_past frame outer phase (ahead site (steering ▸ member))
      begun := fun _ first => by simp [frame, Frame.past] at first
      paused := by simp [phase]
      lone := lone steering
      shown := fun _ => shown
      completed := by simp [phase] }
  | @enters head body next first frame outer phase steering =>
    have loops : ∀ f ∈ m.place, ∃ s next, f.rest.uncons? = some (s, next) := by
      intro f member
      rcases List.mem_cons.mp member with rfl | member
      · exact ⟨_, _, by rw [first]; rfl⟩
      · exact guided.placed.loops f member
    have deeper : n.depth = m.depth + 1 := by
      rw [depth, outer, place, List.length_cons, depth]
    exact {
      placed := placed_arriving (by rw [frame]; exact Frame.inPlace_enter _) outer
        guided.placed.frames loops phase
      sound := by rw [steering, deeper]; exact guided.sound.mono (Nat.le_succ _)
      armed := fun site member => .inl (by
        rw [place, outer]
        exact (ahead site (steering ▸ member)).around)
      begun := fun _ _ => by
        rw [steering, deeper, outer]
        exact ⟨ahead, fun level count carried =>
          Nat.lt_succ_of_le (guided.sound.carry level count carried).1⟩
      paused := by simp [phase]
      lone := lone steering
      shown := fun _ => shown
      completed := by simp [phase] }

/-- A step keeps the pause state in order. -/
theorem Guided.step (guided : m.Guided) : m.step.Guided := by
  cases phase : m.phase with
  | halted outcome =>
    have same : m.step = m := by simp only [Machine.step, phase]
    rw [same]
    exact guided
  | arriving =>
    cases first : m.frame.rest.uncons? with
    | some found =>
      obtain ⟨s, next⟩ := found
      have looks : m.step = m.look s := by simp only [Machine.step, phase, first]
      exact guided.looks phase first (looks ▸ looks_look s)
    | none =>
      have ends : m.step = m.endBlock := by simp only [Machine.step, phase, first]
      obtain ⟨goes, steering, world⟩ := ends_endBlock guided.placed phase
      rw [← ends] at goes steering world
      exact guided.ends phase first goes steering world
  | paused =>
    obtain ⟨s, next, first⟩ := guided.placed.standing (.inl phase)
    have hears : m.step = m.hear s := by simp only [Machine.step, phase, first]
    have answers := answers_hear (guided.paused phase).1 guided.placed phase s
    exact guided.answers phase (hears ▸ answers)
  | ready =>
    have acts : m.step = m.act := by simp only [Machine.step, phase]
    exact guided.does phase (acts ▸ does_act guided.placed phase) (acts ▸ standing_act)

theorem Guided.turn (guided : m.Guided) (turn : m.Turn n) : n.Guided := by
  cases turn with
  | step => exact guided.step
  | others world stands =>
    have attached : { m with world }.attached = m.attached := attached_congr stands
    exact {
      placed := ⟨guided.placed.frames, guided.placed.loops, guided.placed.standing⟩
      sound := guided.sound
      armed := guided.armed
      begun := guided.begun
      paused := fun now => attached ▸ guided.paused now
      lone := fun alone => guided.lone (attached ▸ alone)
      shown := fun now => by
        rintro ⟨gone, paused⟩
        exact guided.shown now ⟨gone, stands ▸ paused⟩
      completed := guided.completed }

theorem Guided.later (guided : m.Guided) (later : m.Later n) : n.Guided :=
  later.keeps (fun _ _ turn guided => guided.turn turn) guided

/-- What a pause hears that ends it without asking for another: the client is gone, resumes, or steps
out. -/
def Forgets (session : Debug.Session) : Prop :=
  session.readCommand.1 = .gone ∨ ∃ command, session.readCommand.1 = .command command ∧
    (Debug.Operation.ofName? command.operation = some .resume ∨
      Debug.Operation.ofName? command.operation = some .stepOut)

theorem Forgets.transient {session : Debug.Session} (forgets : Forgets session)
    (placed : m.Placed) (paused : m.phase = .paused) (client : m.world.session = some session) :
    m.step.steering.transient = [] := by
  obtain ⟨s, next, first⟩ := placed.standing (.inl paused)
  simp only [Machine.step, paused, first, hear, withSession, client]
  rcases forgets with gone | ⟨command, heard, operation⟩
  · rw [gone]
    rfl
  · rw [heard]
    dsimp only [answer]
    rcases operation with resumes | leaves
    · rw [resumes]
      rfl
    · rw [leaves]
      dsimp only [stepOut]
      split
      · rfl
      · split <;> rfl

/-- The pause state in every state of any run, whatever the client asks for and others do. At most one of
countdown and carry is active, and both are small; a carry belongs to a block in execution that began
before it. What is armed is still to come in a block in execution, or is what execution comes to. So no
block ends or begins with a statement of it armed, and nothing is armed when a pause was ended for good.
The session never shows a pause where a statement acts. -/
theorem steering_in_order {program : Block} {tape : Tape} {world : World}
    (fresh : ¬ world.ShowsPause) (reached : (start program tape world).Later m) :
    (m.steering.countdown = 0 ∨ m.steering.carry = none) ∧
    m.steering.countdown ≤ 2 ∧
    (∀ level count, m.steering.carry = some (level, count) → (count = 1 ∨ count = 2) ∧
      level ≤ m.depth ∧ (m.phase = .arriving → m.frame.index = 0 → level < m.depth) ∧
      m.outcome? ≠ some .completed) ∧
    (∀ site ∈ m.steering.transient, Ahead m.place site ∨
      m.phase = .arriving ∧ site = m.site ∧ m.frame.index < m.frame.block.length) ∧
    (m.phase = .arriving → m.frame.rest = .nil ∨ m.frame.index = 0 →
      ∀ site ∈ m.steering.transient, ¬ m.around <:+ site) ∧
    (m.outcome? = some .completed → m.steering.transient = []) ∧
    (∀ session, m.phase = .paused → m.world.session = some session → Forgets session →
      m.step.steering.transient = []) ∧
    (m.attached = false → m.steering.transient = []) ∧
    (m.phase = .ready → ∀ session, m.world.session = some session → session.state ≠ .paused) := by
  have guided : m.Guided := (guided_start fresh).later reached
  refine ⟨guided.sound.single, guided.sound.countdown, ?_, guided.armed, ?_, ?_, ?_, ?_, ?_⟩
  · intro level count carried
    have bounds := guided.sound.carry level count carried
    refine ⟨bounds.2, bounds.1, fun arriving first => (guided.begun arriving first).2 level count carried,
      fun completed => ?_⟩
    have idle := (guided.completed (phase_of_halted completed)).2
    simp [idle] at carried
  · rintro arriving (last | first) site member
    · exact (guided.ended (by rw [last]; rfl) site member).not_suffix
    · exact ((guided.begun arriving first).1 site member).not_suffix
  · exact fun completed => (guided.completed (phase_of_halted completed)).1
  · exact fun session paused client forgets => forgets.transient guided.placed paused client
  · intro alone
    rw [guided.lone alone]
  · intro ready session client paused
    refine guided.shown (.inr ready) ⟨session.detached, ?_⟩
    rw [World.standing, client, Option.map_some, Debug.Session.standing, paused]

/-- A client steps from the first of two statements. While that one acts the second one is armed, and it
is still to come. -/
theorem steering_in_order_step :
    let program : Block := .act ⟨⟨1, 1⟩, true⟩ .increment (.act ⟨⟨1, 7⟩, false⟩ .decrement .nil)
    let client : Debug.Session := { state := .running, reader :=
      { pending := [Debug.Command.encode { operation := .ofString "step" }] } }
    let m := (start program (.blank Tape.standardSize) { session := some client }).step.step
    m.phase = .ready ∧ m.steering.transient = [[1]] ∧ Ahead m.place [1] := by
  intro program client m
  have fresh : ¬ World.ShowsPause { session := some client } := by
    rintro ⟨gone, paused⟩
    exact Debug.SessionState.noConfusion (Prod.mk.inj (Option.some.inj paused)).1
  have reached : (start program (.blank Tape.standardSize) { session := some client }).Later m :=
    (later_step _).tail .step
  have ready : m.phase = .ready := by decide +kernel
  have armed : m.steering.transient = [[1]] := by decide +kernel
  refine ⟨ready, armed, ?_⟩
  rcases (steering_in_order fresh reached).2.2.2.1 [1] (by simp [armed]) with ahead | ⟨arriving, -⟩
  · exact ahead
  · rw [ready] at arriving
    exact Phase.noConfusion arriving

end Machine
end TapeLang

import TapeLang.Machine.Run

/-!
What one step of a machine can do. Control moves in a handful of ways, whatever happens to tape,
world and debugger (`step_moves`), so a property of blocks that passes to their parts holds of every
frame of a run (`Within.step`). The tape keeps its size, and its cursor stays on a cell
(`step_tape`).
-/
namespace TapeLang

open Source (Action Block Header Statement)

namespace Tape

variable {t : Tape}

theorem inBounds_blank (some : 0 < n) : (blank n).InBounds := by
  simpa [InBounds, blank, size] using some

theorem InBounds.write (inside : t.InBounds) (value : UInt8) : (t.write value).InBounds := by
  simpa [InBounds, Tape.write, size] using inside

theorem InBounds.modify (inside : t.InBounds) (f : UInt8 → UInt8) : (t.modify f).InBounds := by
  simpa [InBounds, Tape.modify, size] using inside

theorem InBounds.clear (inside : t.InBounds) : t.clear.InBounds := by
  simpa [InBounds, Tape.clear, size] using inside

theorem InBounds.right (room : t.cursor + 1 < t.size) : t.right.InBounds := room

theorem InBounds.left (inside : t.InBounds) : t.left.InBounds :=
  Nat.lt_of_le_of_lt (Nat.sub_le t.cursor 1) inside

end Tape

/-- The later tape has as many cells as the earlier one, and is in bounds if the earlier one is. -/
def Tape.Keeps (before after : Tape) : Prop :=
  after.size = before.size ∧ (before.InBounds → after.InBounds)

theorem Tape.Keeps.refl (t : Tape) : t.Keeps t := ⟨rfl, id⟩

theorem Tape.Keeps.write (t : Tape) (value : UInt8) : t.Keeps (t.write value) :=
  ⟨size_write t value, fun inside => inside.write value⟩

theorem Tape.Keeps.modify (t : Tape) (f : UInt8 → UInt8) : t.Keeps (t.modify f) :=
  ⟨size_modify t f, fun inside => inside.modify f⟩

theorem Tape.Keeps.seek {t u : Tape} {cell : Int} (done : t.seek cell = .ok u) : t.Keeps u := by
  unfold Tape.seek at done
  split at done
  next index found =>
    obtain rfl := Except.ok.inj done
    exact ⟨rfl, fun _ => (index?_eq_some_iff.mp found).2⟩
  next => simp at done

theorem Tape.Keeps.store {t u : Tape} {cell value : Int} (done : t.store cell value = .ok u) :
    t.Keeps u := by
  unfold Tape.store at done
  split at done
  next index found =>
    obtain rfl := Except.ok.inj done
    exact ⟨by simp [size], fun inside => by simpa [InBounds, size] using inside⟩
  next => simp at done

namespace Machine

variable {m : Machine}

/-! ## Single operations -/

@[simp] theorem withWorld_eq {α : Type} (f : World → World × α) (k : Machine → α → Machine) :
    m.withWorld f k = k { m with world := (f m.world).1 } (f m.world).2 := rfl

/-- What an operation may do to the place of execution and to the tape. -/
structure Stays (m n : Machine) : Prop where
  frame : n.frame = m.frame
  outer : n.outer = m.outer
  tape : m.tape.Keeps n.tape

theorem Stays.refl (m : Machine) : m.Stays m := ⟨rfl, rfl, .refl _⟩

theorem stays_stop (head : Header) (reason : Stop) : m.Stays (m.stop head reason) := by
  cases reason <;> exact ⟨rfl, rfl, .refl _⟩

theorem stays_showState (s : Statement) : m.Stays (m.showState s) := by
  unfold showState withSession
  split
  · dsimp only
    split <;> exact ⟨rfl, rfl, .refl _⟩
  · exact .refl m

theorem stays_look (s : Statement) : m.Stays (m.look s) := by
  unfold look
  split
  · dsimp only
    split
    · exact ⟨(stays_showState s).frame, (stays_showState s).outer, (stays_showState s).tape⟩
    · exact ⟨rfl, rfl, .refl _⟩
  · exact ⟨rfl, rfl, .refl _⟩

/-- An action stays at its statement or goes on to the next one. -/
inductive Acts (m : Machine) (next : Block) : Machine → Prop where
  | stay (stays : m.Stays n) : m.Acts next n
  | advance (stays : m.Stays n) : m.Acts next (n.advance next)

/-- What follows a broadcast, whatever came of it. -/
theorem acts_sent (head : Header) (next : Block) (world : World) (sent : Except Host.OsError Unit) :
    m.Acts next (match sent with
      | .ok () => { m with world }.advance next
      | .error error => { m with world }.stop head (.failure (.os error))) := by
  cases sent with
  | ok => exact .advance ⟨rfl, rfl, .refl _⟩
  | error => exact .stay ⟨rfl, rfl, .refl _⟩

theorem acts_output (head : Header) (next : Block) : m.Acts next (m.output head next) := by
  unfold output
  dsimp only
  split
  · split
    · exact .stay (stays_stop head _)
    · exact .stay ⟨rfl, rfl, .refl _⟩
    · next world _ =>
      split
      · split
        · exact .advance ⟨rfl, rfl, .refl _⟩
        · exact .stay (stays_stop head _)
      · exact acts_sent head next _ _
  · exact acts_sent head next _ _

theorem acts_perform (head : Header) (action : Action) (next : Block) :
    m.Acts next (m.perform head action next) := by
  cases action with
  | increment | decrement => exact .advance ⟨rfl, rfl, .modify _ _⟩
  | clear => exact .advance ⟨rfl, rfl, Tape.size_clear _, fun inside => inside.clear⟩
  | push value => exact .advance ⟨rfl, rfl, .write _ _⟩
  | moveRight =>
    simp only [perform]
    split
    next room => exact .advance ⟨rfl, rfl, rfl, fun _ => .right room⟩
    next => exact .stay (stays_stop head _)
  | moveLeft =>
    simp only [perform]
    split
    · exact .advance ⟨rfl, rfl, rfl, fun inside => inside.left⟩
    · exact .stay (stays_stop head _)
  | output => exact acts_output head next
  | input =>
    simp only [perform, input, withWorld_eq]
    split
    · exact .advance ⟨rfl, rfl, .write _ _⟩
    · exact .stay ⟨rfl, rfl, .refl _⟩
  | switch target =>
    simp only [perform, withWorld_eq]
    split
    · exact .advance ⟨rfl, rfl, .refl _⟩
    · next reason _ => cases reason <;> exact .stay ⟨rfl, rfl, .refl _⟩
  | none => exact .stay (stays_stop head (.fault (.unsupported Action.none.name)))

/-! ## One step -/

/-- How control moves in one step: it stays, goes past a statement, enters a loop, enters the same
body again, or leaves a loop and goes past it. -/
inductive Moves (m n : Machine) : Prop where
  | stay (frame : n.frame = m.frame) (outer : n.outer = m.outer)
  | past (first : m.frame.rest.uncons? = some (s, next)) (frame : n.frame = m.frame.past next)
      (outer : n.outer = m.outer)
  | enter (first : m.frame.rest = .loop head body next) (frame : n.frame = .enter body)
      (outer : n.outer = m.frame :: m.outer)
  | again (frame : n.frame = .enter m.frame.block) (outer : n.outer = m.outer)
  | leave (around : m.outer = parent :: rest) (first : parent.rest.uncons? = some (s, next))
      (frame : n.frame = parent.past next) (outer : n.outer = rest)
  | up (around : m.outer = parent :: rest) (frame : n.frame = parent) (outer : n.outer = rest)

/-- Control moves, and the tape is kept. -/
structure Goes (m n : Machine) : Prop where
  moves : m.Moves n
  tape : m.tape.Keeps n.tape

theorem Stays.goes (stays : m.Stays n) : m.Goes n := ⟨.stay stays.frame stays.outer, stays.tape⟩

theorem Acts.goes (acts : m.Acts next n) (first : m.frame.rest.uncons? = some (s, next)) :
    m.Goes n := by
  cases acts with
  | stay stays => exact stays.goes
  | @advance n stays =>
    exact ⟨.past first (by rw [Machine.advance, stays.frame]) stays.outer, stays.tape⟩

theorem goes_act : m.Goes m.act := by
  unfold act
  split
  · exact ⟨.stay rfl rfl, .refl _⟩
  next head action next rest =>
    have first : m.frame.rest.uncons? = some (.act head action, next) := by rw [rest]; rfl
    split
    · exact ⟨.stay rfl rfl, .refl _⟩
    · exact (acts_perform head action next).goes first
  next head body next rest =>
    have first : m.frame.rest.uncons? = some (.loop head body, next) := by rw [rest]; rfl
    split
    · exact ⟨.stay rfl rfl, .refl _⟩
    · split
      · exact ⟨.past first rfl rfl, .refl _⟩
      · exact ⟨.enter rest rfl rfl, .refl _⟩

theorem goes_endBlock : m.Goes m.endBlock := by
  unfold endBlock
  dsimp only
  split
  · exact ⟨.stay rfl rfl, .refl _⟩
  next parent outer around =>
    split
    · exact ⟨.stay rfl rfl, .refl _⟩
    · split
      · split
        next s next first => exact ⟨.leave around first rfl rfl, .refl _⟩
        next => exact ⟨.up around rfl rfl, .refl _⟩
      · exact ⟨.again rfl rfl, .refl _⟩

theorem goes_stepOut : m.Goes m.stepOut := by
  unfold stepOut
  dsimp only [proceed]
  split
  · exact ⟨.stay rfl rfl, .refl _⟩
  next parent outer around =>
    split
    next s next first => exact ⟨.leave around first rfl rfl, .refl _⟩
    next => exact ⟨.up around rfl rfl, .refl _⟩

theorem goes_answer (s : Statement) (c : Debug.Command) : m.Goes (m.answer s c) := by
  unfold answer
  split
  · exact (Stays.refl m).goes
  · exact ⟨.stay rfl rfl, .refl _⟩
  · exact ⟨.stay rfl rfl, .refl _⟩
  · split
    next tape sought =>
      obtain ⟨cell, -, done⟩ := Option.map_eq_some_iff.mp sought
      exact ⟨.stay rfl rfl, .seek done⟩
    next => exact (Stays.refl m).goes
  · exact ⟨.stay rfl rfl, .refl _⟩
  · exact goes_stepOut
  · split
    · split
      next tape done =>
        have shown := stays_showState (m := { m with tape }) s
        have kept : m.tape.Keeps tape := .store done
        exact ⟨.stay shown.frame shown.outer, shown.tape.1.trans kept.1, shown.tape.2 ∘ kept.2⟩
      next => exact (Stays.refl m).goes
    · exact (Stays.refl m).goes

theorem goes_hear (s : Statement) : m.Goes (m.hear s) := by
  unfold hear withSession
  split
  · dsimp only
    split
    · exact ⟨.stay rfl rfl, .refl _⟩
    · exact ⟨.stay rfl rfl, .refl _⟩
    · exact ⟨.stay rfl rfl, .refl _⟩
    · exact ⟨.stay rfl rfl, .refl _⟩
    · exact ⟨.stay rfl rfl, .refl _⟩
    next command _ =>
      obtain ⟨moves, tape⟩ := goes_answer (m := { m with world := _ }) s command
      refine ⟨?_, tape⟩
      cases moves with
      | stay frame outer => exact .stay frame outer
      | past first frame outer => exact .past first frame outer
      | enter first frame outer => exact .enter first frame outer
      | again frame outer => exact .again frame outer
      | leave around first frame outer => exact .leave around first frame outer
      | up around frame outer => exact .up around frame outer
  · exact (Stays.refl m).goes

/-- Whatever a step does, control moves in one of these ways and the tape is kept. -/
theorem goes_step : m.Goes m.step := by
  unfold step
  split
  · exact (Stays.refl m).goes
  · split
    · exact (stays_look _).goes
    · exact goes_endBlock
  · split
    · exact goes_hear _
    · exact ⟨.stay rfl rfl, .refl _⟩
  · exact goes_act

/-- A step leaves as many cells as there were, and the cursor on one of them. -/
theorem step_tape : m.tape.Keeps m.step.tape := goes_step.tape

/-! ## The world -/

/-- The world is the same, the debug session perhaps aside. -/
def Spares (m n : Machine) : Prop := ∃ session, n.world = { m.world with session }

theorem Spares.refl (m : Machine) : m.Spares m := ⟨m.world.session, rfl⟩

theorem spares_showState (s : Statement) : m.Spares (m.showState s) := by
  unfold showState withSession
  split
  · dsimp only
    split <;> exact ⟨_, rfl⟩
  · exact .refl m

theorem spares_look (s : Statement) : m.Spares (m.look s) := by
  unfold look
  split
  · dsimp only
    split
    · exact spares_showState (m := { m with steering := _ }) s
    · exact .refl m
  · exact .refl m

theorem spares_endBlock : m.Spares m.endBlock := by
  unfold endBlock
  dsimp only
  split
  · exact .refl m
  · split
    · exact .refl m
    · split
      · split <;> exact .refl m
      · exact .refl m

theorem spares_stepOut : m.Spares m.stepOut := by
  unfold stepOut
  dsimp only [proceed]
  split
  · exact ⟨_, rfl⟩
  · split <;> exact ⟨_, rfl⟩

theorem spares_answer (s : Statement) (c : Debug.Command) : m.Spares (m.answer s c) := by
  unfold answer
  split
  · exact .refl m
  · exact ⟨_, rfl⟩
  · exact ⟨_, rfl⟩
  · split
    · exact ⟨_, rfl⟩
    · exact .refl m
  · exact ⟨_, rfl⟩
  · exact spares_stepOut
  · split
    · split
      next tape _ => exact spares_showState (m := { m with tape }) s
      next => exact .refl m
    · exact .refl m

theorem spares_hear (s : Statement) : m.Spares (m.hear s) := by
  unfold hear withSession
  split
  · dsimp only
    split
    · exact ⟨_, rfl⟩
    · exact ⟨_, rfl⟩
    · exact ⟨_, rfl⟩
    · exact ⟨_, rfl⟩
    · exact ⟨_, rfl⟩
    next command _ =>
      obtain ⟨session, same⟩ := spares_answer (m := { m with world := _ }) s command
      exact ⟨session, same⟩
  · exact .refl m

theorem act_action (rest : m.frame.rest = .act head action next) :
    m.act = m.halt (.broken (.tape .noCell)) ∨ m.act = m.perform head action next := by
  simp only [act, rest]
  split
  · exact .inl rfl
  · exact .inr rfl

theorem spares_act_loop (rest : m.frame.rest = .loop head body next) : m.Spares m.act := by
  simp only [act, rest]
  split
  · exact .refl m
  · split <;> exact .refl m

/-- Only an action that is performed touches the world beyond the debug session. -/
theorem step_world : m.Spares m.step ∨
    ∃ head action next, m.phase = .ready ∧ m.frame.rest = .act head action next ∧
      m.step = m.perform head action next := by
  cases phase : m.phase with
  | halted outcome =>
    have same : m.step = m := by simp only [step, phase]
    exact .inl (by rw [same]; exact .refl m)
  | arriving =>
    left
    simp only [step, phase]
    split
    · exact spares_look _
    · exact spares_endBlock
  | paused =>
    left
    simp only [step, phase]
    split
    · exact spares_hear _
    · exact .refl m
  | ready =>
    have same : m.step = m.act := by simp only [step, phase]
    rw [same]
    cases rest : m.frame.rest with
    | nil => exact .inl (by simp only [act, rest]; exact .refl m)
    | act head action next =>
      rcases act_action rest with halted | performed
      · exact .inl (halted ▸ .refl m)
      · exact .inr ⟨head, action, next, rfl, rfl, performed⟩
    | loop head body next => exact .inl (spares_act_loop rest)

/-! ## Properties of the program -/

/-- A property of blocks that passes to their parts. -/
structure Hereditary (Q : Block → Prop) : Prop where
  act : ∀ {head action next}, Q (.act head action next) → Q next
  loop : ∀ {head body next}, Q (.loop head body next) → Q body ∧ Q next

theorem Hereditary.uncons (closed : Hereditary Q) (holds : Q block)
    (first : block.uncons? = some (s, next)) : Q next := by
  cases block with
  | nil => simp [Block.uncons?] at first
  | act =>
    obtain ⟨-, rfl⟩ := Prod.mk.inj (Option.some.inj first)
    exact closed.act holds
  | loop =>
    obtain ⟨-, rfl⟩ := Prod.mk.inj (Option.some.inj first)
    exact (closed.loop holds).2

/-- Every block in execution has the property, and so has what is left of it. -/
def Within (Q : Block → Prop) (m : Machine) : Prop :=
  ∀ f ∈ m.frame :: m.outer, Q f.block ∧ Q f.rest

theorem within_start (holds : Q program) (tape : Tape) (world : World) :
    (start program tape world).Within Q := by
  intro f member
  obtain rfl := List.mem_singleton.mp member
  exact ⟨holds, holds⟩

/-- A step keeps a property of the program that passes to the parts of blocks. -/
theorem Within.step (closed : Hereditary Q) (within : m.Within Q) : m.step.Within Q := by
  have here : Q m.frame.block ∧ Q m.frame.rest := within _ (by simp)
  have around : ∀ f ∈ m.outer, Q f.block ∧ Q f.rest := fun f member => within f (by simp [member])
  have build {frame : Frame} {outer : List Frame} (same : m.step.frame = frame)
      (same' : m.step.outer = outer) (inner : Q frame.block ∧ Q frame.rest)
      (rest : ∀ f ∈ outer, Q f.block ∧ Q f.rest) : m.step.Within Q := by
    intro f member
    rw [same, same'] at member
    rcases List.mem_cons.mp member with rfl | member
    · exact inner
    · exact rest f member
  cases goes_step.moves with
  | stay frame outer => exact build frame outer here around
  | past first frame outer => exact build frame outer ⟨here.1, closed.uncons here.2 first⟩ around
  | enter first frame outer =>
    have body := (closed.loop (first ▸ here.2)).1
    exact build frame outer ⟨body, body⟩ within
  | again frame outer => exact build frame outer ⟨here.1, here.1⟩ around
  | leave parents first frame outer =>
    rw [parents] at around
    have parent := around _ (List.mem_cons_self ..)
    exact build frame outer ⟨parent.1, closed.uncons parent.2 first⟩
      fun f member => around f (List.mem_cons_of_mem _ member)
  | up parents frame outer =>
    rw [parents] at around
    exact build frame outer (around _ (List.mem_cons_self ..))
      fun f member => around f (List.mem_cons_of_mem _ member)

end Machine
end TapeLang

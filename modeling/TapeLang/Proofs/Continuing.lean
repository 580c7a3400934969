import TapeLang.Proofs.Standing

/-!
The client over a run. Whatever a step is, it starts no debug session and puts none in the place of
another; it leaves where the console's output goes and whether the client sees it (`continues_step`).
-/
namespace TapeLang.Machine

open Source (Statement)

variable {m : Machine}

theorem continues_showState (m : Machine) (s : Statement) : m.world.Continues (m.showState s).world := by
  unfold showState withSession
  split
  next session client =>
    dsimp only
    split <;> exact .of_becomes client (session.becomes_sendState (m.snapshot s))
  next => exact .refl m.world

theorem continues_look (m : Machine) (s : Statement) : m.world.Continues (m.look s).world := by
  unfold look
  split
  · dsimp only
    split
    · exact continues_showState
        { m with steering := (m.steering.shouldPause m.site s.head.marked).2.entered m.site } s
    · exact .refl m.world
  · exact .refl m.world

theorem continues_proceed (m : Machine) : m.world.Continues m.proceed.world := by
  refine ⟨rfl, fun t same => ?_⟩
  obtain ⟨s, client, rfl⟩ := Option.map_eq_some_iff.mp same
  exact ⟨s, client, s.becomes_resume⟩

theorem continues_answer (m : Machine) (s : Statement) (c : Debug.Command) :
    m.world.Continues (m.answer s c).world := by
  have ignored : m.world.Continues m.world := .refl m.world
  have proceeds (n : Machine) (world : n.world = m.world) : m.world.Continues n.proceed.world :=
    world ▸ continues_proceed n
  unfold answer
  split
  · exact ignored
  · exact proceeds (m.armAhead 1) rfl
  · exact proceeds (m.armAhead 2) rfl
  · split
    next tape _ => exact proceeds ({ m with tape }.armAhead 1) rfl
    next => exact ignored
  · exact proceeds { m with steering := m.steering.resume } rfl
  · rw [stepOut_world]
    exact continues_proceed m
  · split
    · split
      next tape _ => exact continues_showState { m with tape } s
      next => exact ignored
    · exact ignored

theorem continues_hear (m : Machine) (s : Statement) : m.world.Continues (m.hear s).world := by
  unfold hear withSession
  split
  next session client =>
    have continues := World.Continues.of_becomes client
      (session.becomes_readCommandFrom (session.reader.pending.length + 1))
    dsimp only [Debug.Session.readCommand]
    split
    · exact continues
    · exact continues
    · exact continues
    · exact continues
    · exact continues
    · exact continues.trans (continues_answer { m with world := _ } s _)
  next => exact .refl m.world

/-- What a step makes of the client. -/
theorem continues_step (m : Machine) : m.world.Continues m.step.world := by
  unfold step
  split
  · exact .refl m.world
  · split
    · exact continues_look m _
    · rw [endBlock_world]
      exact .refl m.world
  · split
    · exact continues_hear m _
    · exact .refl m.world
  · exact emits_act.continues

end TapeLang.Machine

import Mathlib.Logic.Function.Iterate
import TapeLang.Proofs.Stepping

/-!
Programs that stay away from the network. Where no statement of a program switches to it, a run that
starts on another target never gets there (`Offline.step`), and so it never waits for a connection
(`Offline.connected`). The operations on the world that such a run uses keep the target and never
start a debug session.
-/
namespace TapeLang

open Source (Action Block Header Target)

/-- Whether an action leaves the network alone. -/
def Source.Action.isOffline : Action → Bool
  | .switch name => name != Target.http.name
  | _ => true

/-- Whether no statement of a program switches to the network. -/
def Source.Block.isOffline : Block → Bool
  | .nil => true
  | .act _ action next => action.isOffline && next.isOffline
  | .loop _ body next => body.isOffline && next.isOffline

/-- A mapped result comes from a result. -/
theorem ok_of_map_ok {ε α β : Type} {x : Except ε α} {f : α → β} {b : β} (mapped : x.map f = .ok b) :
    ∃ a, x = .ok a ∧ f a = b := by
  cases x with
  | error => simp [Except.map] at mapped
  | ok a => exact ⟨a, rfl, Except.ok.inj mapped⟩

namespace World

variable {w v : World}

/-- An operation that starts no debug session, and touches one only to forward console output. -/
structure Leaves (w v : World) : Prop where
  forwarded : v.console.forwarded = w.console.forwarded
  solo : w.session = none → v.session = none
  session : w.console.forwarded = false → v.session = w.session

/-- An operation that leaves the session and also the target. -/
structure Keeps (w v : World) : Prop extends w.Leaves v where
  target : v.target = w.target

theorem Keeps.of_same (forwarded : v.console.forwarded = w.console.forwarded)
    (session : v.session = w.session) (target : v.target = w.target) : w.Keeps v :=
  ⟨⟨forwarded, fun solo => session.trans solo, fun _ => session⟩, target⟩

theorem Keeps.refl (w : World) : w.Keeps w := .of_same rfl rfl rfl

theorem Keeps.trans {u : World} (first : u.Keeps w) (second : w.Keeps v) : u.Keeps v where
  forwarded := second.forwarded.trans first.forwarded
  solo := second.solo ∘ first.solo
  session own := (second.session (first.forwarded.trans own)).trans (first.session own)
  target := second.target.trans first.target

theorem keeps_writeConsole (written : w.writeConsole stream bytes = .ok v) : w.Keeps v := by
  unfold writeConsole at written
  split at written
  next forwarded =>
    split at written
    next session open' =>
      obtain ⟨done, -, rfl⟩ := ok_of_map_ok written
      exact ⟨⟨rfl, by simp [open'], by simp [forwarded]⟩, rfl⟩
    next =>
      obtain rfl := Except.ok.inj written
      exact .refl w
  · split at written
    all_goals
      obtain ⟨done, -, rfl⟩ := ok_of_map_ok written
      exact .of_same rfl rfl rfl

/-- Writing to the console changes what was said on it, or to the client. -/
theorem writeConsole_world (written : w.writeConsole stream bytes = .ok v) :
    ∃ console session, v = { w with console, session } := by
  unfold writeConsole at written
  split at written
  · split at written
    · obtain ⟨done, -, rfl⟩ := ok_of_map_ok written
      exact ⟨_, _, rfl⟩
    · exact ⟨_, _, (Except.ok.inj written).symm⟩
  · split at written
    all_goals
      obtain ⟨done, -, rfl⟩ := ok_of_map_ok written
      exact ⟨_, _, rfl⟩

theorem keeps_drain (w : World) : w.Keeps w.drain := by
  unfold drain
  split
  · exact .refl w
  · exact .of_same rfl rfl rfl

theorem keeps_writeByte (written : w.writeByte byte endpoint = .ok v) : w.Keeps v := by
  cases endpoint with
  | console => exact keeps_writeConsole written
  | file | connection =>
    obtain rfl := Except.ok.inj written
    exact .of_same rfl rfl rfl

theorem keeps_writeEach (byte : UInt8) (endpoints : List Endpoint) (w : World) :
    w.Keeps (w.writeEach byte endpoints).1 := by
  induction endpoints generalizing w with
  | nil => exact .refl w
  | cons endpoint rest ih =>
    unfold writeEach
    split
    next v written => exact (keeps_writeByte written).trans (ih v)
    next => exact .refl w

theorem keeps_broadcast (w : World) (byte : UInt8) : w.Keeps (w.broadcast byte).1 :=
  (keeps_drain w).trans (keeps_writeEach byte w.drain.endpoints w.drain)

theorem keeps_readLive (w : World) : w.Keeps w.readLive.1 := by
  unfold readLive
  split
  · exact .of_same rfl rfl rfl
  · exact .of_same rfl rfl rfl
  all_goals
    unfold readConsole
    split
    next done =>
      obtain ⟨_, _, same⟩ := ok_of_map_ok done
      obtain ⟨-, rfl⟩ := Prod.mk.inj same
      exact .of_same rfl rfl rfl
    next => exact .refl w

theorem keeps_read (w : World) : w.Keeps w.read.1 := (keeps_drain w).trans (keeps_readLive w.drain)

/-- A switch to another target than the network, from another target than the network. -/
theorem switch_away (away : w.target ≠ .http) (name : String) (other : name ≠ Target.http.name) :
    (w.switch name).1.target ≠ .http ∧ (w.switch name).1.console = w.console ∧
      (w.switch name).1.session = w.session := by
  have opened : w.openFile.1.target ≠ .http ∧ w.openFile.1.console = w.console ∧
      w.openFile.1.session = w.session := by
    unfold openFile
    split <;> simp [away]
  simp only [switch, enter, away, ↓reduceIte]
  split
  · exact ⟨by simp [setConsole], rfl, rfl⟩
  · exact opened
  next found => exact absurd (Target.ofName?_eq_some_iff.mp found) other
  · exact ⟨by simp [setTcp], rfl, rfl⟩
  · exact ⟨away, rfl, rfl⟩

end World

namespace Machine

variable {m : Machine}

/-- A machine that is not on the network and whose program never goes there. -/
structure Offline (m : Machine) : Prop where
  away : m.world.target ≠ .http
  program : m.Within fun block => block.isOffline = true

theorem hereditary_isOffline : Hereditary fun block => block.isOffline = true where
  act holds := by
    simp only [Block.isOffline, Bool.and_eq_true] at holds
    exact holds.2
  loop holds := by
    simpa only [Block.isOffline, Bool.and_eq_true] using holds

theorem offline_start {world : World} (offline : program.isOffline = true) (tape : Tape)
    (away : world.target ≠ .http) : (start program tape world).Offline :=
  ⟨away, within_start offline tape world⟩

/-- Away from the network an output is a broadcast. -/
theorem output_away (away : m.world.target ≠ .http) (head : Header) (next : Block) :
    m.output head next = m.withWorld (·.broadcast m.tape.current) fun m result =>
      match result with
      | .ok () => m.advance next
      | .error error => m.stop head (.failure (.os error)) :=
  if_neg away

/-- What an action does to the world: nothing, a broadcast, reading, or a switch. -/
theorem perform_world (away : m.world.target ≠ .http) (head : Header) (action : Action)
    (next : Block) :
    (m.perform head action next).world = m.world ∨
    (action = .output ∧
      (m.perform head action next).world = (m.world.broadcast m.tape.current).1) ∨
    (action = .input ∧ (m.perform head action next).world = m.world.read.1) ∨
    ∃ name, action = .switch name ∧
      (m.perform head action next).world = (m.world.switch name).1 := by
  have stopped (n : Machine) (reason : Stop) : (n.stop head reason).world = n.world := by
    cases reason <;> rfl
  cases action with
  | increment | decrement | clear | push | none => exact .inl rfl
  | moveRight | moveLeft =>
    left
    simp only [perform]
    split
    · rfl
    · exact stopped _ _
  | output =>
    refine .inr (.inl ⟨rfl, ?_⟩)
    simp only [perform, output_away away, withWorld_eq]
    split
    · rfl
    · exact stopped _ _
  | input =>
    refine .inr (.inr (.inl ⟨rfl, ?_⟩))
    simp only [perform, input, withWorld_eq]
    split
    · rfl
    · exact stopped _ _
  | switch name =>
    refine .inr (.inr (.inr ⟨name, rfl, ?_⟩))
    simp only [perform, withWorld_eq]
    split
    · rfl
    · exact stopped _ _

theorem Offline.allowed (offline : m.Offline) (rest : m.frame.rest = .act head action next) :
    action.isOffline = true := by
  have holds := (offline.program m.frame (by simp)).2
  rw [rest] at holds
  exact (Bool.and_eq_true_iff.mp holds).1

/-- What an action of such a program does to the world stays away from the network, and leaves the
session. -/
theorem Offline.perform (offline : m.Offline) (rest : m.frame.rest = .act head action next) :
    (m.perform head action next).world.target ≠ .http ∧
      m.world.Leaves (m.perform head action next).world := by
  rcases perform_world offline.away head action next with kept | ⟨-, sent⟩ | ⟨-, read⟩ |
    ⟨name, rfl, switched⟩
  · rw [kept]
    exact ⟨offline.away, (World.Keeps.refl m.world).toLeaves⟩
  · have keeps := World.keeps_broadcast m.world m.tape.current
    rw [sent, keeps.target]
    exact ⟨offline.away, keeps.toLeaves⟩
  · have keeps := World.keeps_read m.world
    rw [read, keeps.target]
    exact ⟨offline.away, keeps.toLeaves⟩
  · have other := bne_iff_ne.mp (offline.allowed rest)
    have ⟨away, console, session⟩ := World.switch_away offline.away name other
    rw [switched]
    exact ⟨away, by rw [console], session.trans, fun _ => session⟩

/-- A step of a program that stays away from the network stays away from it. -/
theorem Offline.step (offline : m.Offline) : m.step.Offline := by
  refine ⟨?_, offline.program.step hereditary_isOffline⟩
  rcases step_world with ⟨session, same⟩ | ⟨head, action, next, -, rest, same⟩
  · rw [same]
    exact offline.away
  · rw [same]
    exact (offline.perform rest).1

/-- A statement that acts leaves the session, but for what it forwards. -/
theorem Offline.act (offline : m.Offline) : m.world.Leaves m.act.world := by
  have same : m.world.Leaves m.world := (World.Keeps.refl m.world).toLeaves
  cases rest : m.frame.rest with
  | nil => simpa only [Machine.act, rest] using same
  | act head action next =>
    rcases act_action rest with halted | performed
    · rw [halted]
      exact same
    · rw [performed]
      exact (offline.perform rest).2
  | loop head body next =>
    simp only [Machine.act, rest]
    split
    · exact same
    · split <;> exact same

theorem endBlock_world (m : Machine) : m.endBlock.world = m.world := by
  simp only [endBlock]
  split
  · rfl
  · split
    · rfl
    · split
      · split <;> rfl
      · rfl

/-- Stepping out ends the pause as anything does. -/
theorem stepOut_world (m : Machine) : m.stepOut.world = m.proceed.world := by
  unfold Machine.stepOut
  dsimp only
  split
  · rfl
  · split <;> rfl

/-- A step of such a program starts no debug session. -/
theorem Offline.solo_step (offline : m.Offline) (solo : m.world.session = none) :
    m.step.world.session = none := by
  have detached : m.attached = false := by simp only [attached, solo]
  unfold Machine.step
  split
  · exact solo
  · split
    · rwa [look, detached]
    · rwa [endBlock_world]
  · split
    · simp only [hear, withSession, solo]
    · exact solo
  · exact offline.act.solo solo

theorem Offline.iterate (offline : m.Offline) (n : Nat) : (Machine.step^[n] m).Offline := by
  induction n generalizing m with
  | zero => exact offline
  | succ n ih => exact ih offline.step

theorem Offline.solo_iterate (offline : m.Offline) (solo : m.world.session = none) (n : Nat) :
    (Machine.step^[n] m).world.session = none := by
  induction n generalizing m with
  | zero => exact solo
  | succ n ih => exact ih offline.step (offline.solo_step solo)

/-- Away from the network nothing waits for a connection. -/
theorem Offline.connected (offline : m.Offline) : m.awaitsConnection = false := by
  unfold awaitsConnection
  split
  · simp [offline.away]
  · rfl

/-- A machine with no client that stays away from the network waits for nobody. -/
theorem Offline.awake (offline : m.Offline) (solo : m.world.session = none) : m.waits = false := by
  have silent : m.awaitsCommand = false := by
    simp only [awaitsCommand, solo]
    split <;> simp_all
  simp only [waits, silent, offline.connected, Bool.or_self]

end Machine
end TapeLang

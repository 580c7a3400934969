import TapeLang.Proofs.Reporting
import TapeLang.Proofs.Stepping

/-!
How the debug session stands: in which state it is, and whether its client is gone. No action of the
program changes that, on whatever target; forwarded output adds to what the session has sent, and that is
all (`emits_act`). It changes where the program pauses and where a pause ends.
-/
namespace TapeLang

open Source (Action Block Header Statement)

/-! ## Sessions -/

namespace Debug.Session

variable {s t : Session}

/-- The state of a session, and whether its client is gone. -/
def standing (s : Session) : SessionState × Bool := (s.state, s.detached)

theorem standing_send {message : ServerMessage} (sent : s.send message = .ok t) :
    t.standing = s.standing := by
  unfold send at sent
  split at sent
  · obtain rfl := Except.ok.inj sent
    rfl
  · simp at sent

theorem standing_writeThrough {bytes : List UInt8} {name : Text} {length : Nat}
    (through : s.writeThrough bytes name = .ok (length, t)) : t.standing = s.standing := by
  unfold writeThrough at through
  split at through
  · obtain ⟨-, rfl⟩ := Prod.mk.inj (Except.ok.inj through)
    rfl
  · obtain ⟨later, streamed, same⟩ := ok_of_map_ok through
    obtain ⟨-, rfl⟩ := Prod.mk.inj same
    unfold writeStream at streamed
    split at streamed
    · obtain rfl := Except.ok.inj streamed
      rfl
    · exact standing_send streamed

/-- A state that is sent, or lost, leaves the session paused and the client where it is. -/
theorem standing_sendState (s : Session) (snapshot : Snapshot) :
    (s.sendState snapshot).1.standing = (.paused, s.detached) := by
  unfold sendState
  dsimp only
  split
  next sent => exact standing_send sent
  next => rfl

/-- Whether the client was lost in waiting for a command. -/
def Heard.isGone : Heard → Bool
  | .gone => true
  | _ => false

theorem standing_readCommandFrom (s : Session) (bound : Nat) :
    (s.readCommandFrom bound).2.standing =
      if Heard.isGone (s.readCommandFrom bound).1 then (.running, true) else s.standing := by
  induction bound generalizing s with
  | zero => rfl
  | succ bound ih =>
    unfold readCommandFrom
    split
    · rfl
    · rfl
    · rfl
    · dsimp only
      split
      · exact ih _
      · split <;> rfl

theorem standing_resume (s : Session) :
    s.resume.standing = (if s.state = .paused then .running else s.state, s.detached) := by
  unfold resume
  split <;> rfl

theorem attached_eq (s : Session) :
    s.attached = (!s.standing.2 && s.standing.1 != .finished) := rfl

end Debug.Session

/-! ## Worlds -/

namespace World

variable {w v : World}

/-- How the debug session stands, if there is one. -/
def standing (w : World) : Option (Debug.SessionState × Bool) :=
  w.session.map Debug.Session.standing

theorem standing_of_session (same : v.session = w.session) : v.standing = w.standing := by
  rw [standing, standing, same]

theorem standing_writeConsole {stream : Stream} {bytes : List UInt8}
    (written : w.writeConsole stream bytes = .ok v) : v.standing = w.standing := by
  cases own : w.console.forwarded with
  | false => exact standing_of_session ((keeps_writeConsole written).session own)
  | true =>
    cases client : w.session with
    | none => exact standing_of_session (((keeps_writeConsole written).solo client).trans client.symm)
    | some session =>
      simp only [writeConsole, own, client, ↓reduceIte] at written
      obtain ⟨⟨length, later⟩, through, rfl⟩ := ok_of_map_ok written
      simp [standing, client, Debug.Session.standing_writeThrough through]

theorem standing_writeByte {byte : UInt8} {endpoint : Endpoint}
    (written : w.writeByte byte endpoint = .ok v) : v.standing = w.standing := by
  cases endpoint with
  | console => exact standing_writeConsole written
  | file | connection =>
    obtain rfl := Except.ok.inj written
    rfl

theorem standing_writeEach (byte : UInt8) (endpoints : List Endpoint) (w : World) :
    (w.writeEach byte endpoints).1.standing = w.standing := by
  induction endpoints generalizing w with
  | nil => rfl
  | cons endpoint rest ih =>
    unfold writeEach
    split
    next v written => exact (ih v).trans (standing_writeByte written)
    next => rfl

/-- An operation that does not touch the session, nor where the output on the console goes. -/
structure Skirts (w v : World) : Prop where
  forwarded : v.console.forwarded = w.console.forwarded
  session : v.session = w.session

theorem Skirts.refl (w : World) : w.Skirts w := ⟨rfl, rfl⟩

theorem Skirts.trans {u : World} (first : u.Skirts w) (second : w.Skirts v) : u.Skirts v :=
  ⟨second.forwarded.trans first.forwarded, second.session.trans first.session⟩

/-- What the actions of a program make of its client: it goes on, and stands as it did. -/
structure Emits (w v : World) : Prop where
  standing : v.standing = w.standing
  continues : w.Continues v

theorem Skirts.emits (skirts : w.Skirts v) : w.Emits v :=
  ⟨standing_of_session skirts.session, .of_same skirts.forwarded skirts.session⟩

theorem Emits.refl (w : World) : w.Emits w := (Skirts.refl w).emits

theorem Emits.trans {u : World} (first : u.Emits w) (second : w.Emits v) : u.Emits v :=
  ⟨second.standing.trans first.standing, first.continues.trans second.continues⟩

theorem skirts_drain (w : World) : w.Skirts w.drain := by
  unfold drain
  split <;> exact ⟨rfl, rfl⟩

theorem emits_broadcast (w : World) (byte : UInt8) : w.Emits (w.broadcast byte).1 :=
  (skirts_drain w).emits.trans ⟨standing_writeEach byte _ _, continues_writeEach byte _ _⟩

theorem skirts_read (w : World) : w.Skirts w.read.1 := by
  have live (w : World) : w.Skirts w.readLive.1 := by
    unfold readLive
    split
    · exact ⟨rfl, rfl⟩
    · exact ⟨rfl, rfl⟩
    all_goals
      split
      next read =>
        obtain ⟨⟨byte, input⟩, -, same⟩ := ok_of_map_ok read
        obtain ⟨-, rfl⟩ := Prod.mk.inj same
        exact ⟨rfl, rfl⟩
      next => exact .refl w
  exact (skirts_drain w).trans (live _)

theorem skirts_awaitRounds {rounds : Nat} {found : Bool}
    (awaited : w.awaitRounds rounds = .ok (v, found)) : w.Skirts v := by
  have drained := skirts_drain w
  have again := drained.trans (skirts_drain w.drain)
  induction rounds generalizing w with
  | zero =>
    obtain ⟨rfl, -⟩ := Prod.mk.inj (Except.ok.inj awaited)
    exact .refl w
  | succ rounds ih =>
    simp only [awaitRounds, bind, Except.bind, pure, Except.pure] at awaited
    split at awaited
    · obtain ⟨rfl, -⟩ := Prod.mk.inj (Except.ok.inj awaited)
      exact drained
    · split at awaited
      · simp at awaited
      · split at awaited
        · obtain ⟨rfl, -⟩ := Prod.mk.inj (Except.ok.inj awaited)
          exact drained
        · split at awaited
          · obtain ⟨rfl, -⟩ := Prod.mk.inj (Except.ok.inj awaited)
            exact again
          · split at awaited
            · simp at awaited
            · have later := ih awaited (skirts_drain _) ((skirts_drain _).trans (skirts_drain _))
              exact again.trans ⟨later.forwarded, later.session⟩

theorem skirts_finishCycle (cycled : w.finishCycle = .ok v) : w.Skirts v := by
  simp only [finishCycle, bind, Except.bind, pure, Except.pure] at cycled
  split at cycled
  · simp at cycled
  · split at cycled
    · simp at cycled
    · obtain rfl := Except.ok.inj cycled
      exact ⟨rfl, rfl⟩

theorem skirts_closeListener (w : World) : w.Skirts w.closeListener.1 := by
  unfold closeListener
  split
  · exact ⟨rfl, rfl⟩
  · dsimp only
    split <;> exact ⟨rfl, rfl⟩

theorem skirts_enter (w : World) (name : String) : w.Skirts (w.enter name).1 := by
  unfold enter
  split
  · exact ⟨rfl, rfl⟩
  · unfold openFile
    split <;> exact ⟨rfl, rfl⟩
  · unfold openNetwork
    split
    · exact .refl w
    · split
      · exact .refl w
      · split <;> exact ⟨rfl, rfl⟩
  · exact ⟨rfl, rfl⟩
  · exact .refl w

theorem skirts_switch (w : World) (name : String) : w.Skirts (w.switch name).1 := by
  have left : w.Skirts (if w.target = .http then w.closeListener else (w, .ok ())).1 := by
    split
    · exact skirts_closeListener w
    · exact .refl w
  unfold switch
  dsimp only
  split
  · exact left
  · exact left.trans (skirts_enter _ name)

end World

/-! ## Machines -/

namespace Machine

variable {m n : Machine} {head : Header} {next : Block}

/-- Whether a client is attached is how the session stands. -/
theorem attached_congr (same : n.world.standing = m.world.standing) : n.attached = m.attached := by
  unfold attached
  unfold World.standing at same
  cases before : m.world.session <;> cases after : n.world.session <;>
    simp only [before, after, Option.map_some, Option.map_none, reduceCtorEq, Option.some.injEq]
      at same ⊢
  rw [Debug.Session.attached_eq, Debug.Session.attached_eq, same]

theorem emits_stop (head : Header) (reason : Stop) : m.world.Emits (m.stop head reason).world := by
  cases reason <;> exact .refl m.world

/-- What can become of an output, whatever it is routed to: the program goes on, waits for a connection,
or ends at the statement. The session stands as it did in each case. -/
inductive Outputs (m : Machine) (head : Header) (next : Block) : Machine → Prop
  | sends {world : World} (emits : m.world.Emits world) :
    m.Outputs head next ({ m with world }.advance next)
  | waits {world : World} (emits : m.world.Emits world) : m.Outputs head next { m with world }
  | fails {world : World} (emits : m.world.Emits world) (failure : Failure) :
    m.Outputs head next ({ m with world }.stop head (.failure failure))
  | misuses (misuse : WaitFault) : m.Outputs head next (m.stop head (.fault (.wait misuse)))

/-- A broadcast from what the machine's world has become, with what follows it either way. -/
theorem outputs_broadcast {world : World} (emits : m.world.Emits world) (byte : UInt8)
    {follow : Machine → Except Host.OsError Unit → Machine}
    (sent : ∀ n, follow n (.ok ()) = n.advance next)
    (lost : ∀ n error, follow n (.error error) = n.stop head (.failure (.os error))) :
    m.Outputs head next ({ m with world }.withWorld (·.broadcast byte) follow) := by
  have after := emits.trans (World.emits_broadcast world byte)
  rw [withWorld_eq]
  cases (world.broadcast byte).2 with
  | ok => rw [sent]; exact .sends after
  | error error => rw [lost]; exact .fails after (.os error)

theorem outputs_output (m : Machine) (head : Header) (next : Block) :
    m.Outputs head next (m.output head next) := by
  unfold output
  dsimp only
  split
  · split
    next misuse _ => exact .misuses misuse
    next awaited => exact .waits (World.skirts_awaitRounds awaited).emits
    next awaited =>
      have found := World.skirts_awaitRounds awaited
      split
      · split
        next cycled => exact .sends (found.trans (World.skirts_finishCycle cycled)).emits
        next misuse _ => exact .misuses misuse
      · exact outputs_broadcast found.emits _ (fun _ => rfl) (fun _ _ => rfl)
  · exact outputs_broadcast (.refl m.world) _ (fun _ => rfl) (fun _ _ => rfl)

theorem Outputs.emits (outputs : m.Outputs head next n) : m.world.Emits n.world := by
  cases outputs with
  | sends emits | waits emits => exact emits
  | @fails world emits failure =>
    exact emits.trans (emits_stop (m := { m with world }) head (.failure failure))
  | misuses => exact emits_stop head _

theorem emits_perform (action : Action) : m.world.Emits (m.perform head action next).world := by
  cases action with
  | increment | decrement | clear | push => exact .refl m.world
  | moveRight | moveLeft =>
    simp only [perform]
    split
    · exact .refl m.world
    · exact emits_stop head _
  | output => exact (outputs_output m head next).emits
  | input =>
    have read := (World.skirts_read m.world).emits
    simp only [perform, input, withWorld_eq]
    split
    · exact read
    · exact read.trans (emits_stop (m := { m with world := _ }) head _)
  | switch name =>
    have switched := (World.skirts_switch m.world name).emits
    simp only [perform, withWorld_eq]
    split
    · exact switched
    · exact switched.trans (emits_stop (m := { m with world := _ }) head _)
  | none => exact emits_stop head _

/-- No statement that acts changes how the debug session stands. -/
theorem emits_act : m.world.Emits m.act.world := by
  unfold act
  split
  · exact .refl m.world
  · split
    · exact .refl m.world
    · exact emits_perform _
  · split
    · exact .refl m.world
    · split <;> exact .refl m.world

theorem standing_act : m.act.world.standing = m.world.standing := emits_act.standing

end Machine
end TapeLang

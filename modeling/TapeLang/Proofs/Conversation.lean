import TapeLang.Proofs.Offline
import TapeLang.Proofs.Snapshots

/-!
What a client is told. Over streams that do not fail every message arrives (`Session.Live.send`), and a
step that does not let a statement act tells the client nothing but where the program paused
(`step_tells`). What it tells then is read back as it was.
-/
namespace TapeLang

open Source (Block Header Statement)

namespace Debug.Session

/-- A session that has not been closed and whose streams do not fail. -/
structure Live (s : Session) : Prop where
  unfinished : s.state ≠ .finished
  reads : s.reader.budget = none
  writes : s.writer.budget = none

/-- The later session has sent so many messages more, each in one call, and is of the same kind. -/
structure Says (s t : Session) (messages : List ServerMessage) : Prop where
  chunks : t.writer.chunks = (messages.map ServerMessage.encode).reverse ++ s.writer.chunks
  mirrors : t.mirrors = s.mirrors
  closable : t.closable = s.closable
  closings : t.closings = s.closings

/-- The session after one more message. -/
def told (s : Session) (m : ServerMessage) : Session :=
  { s with writer := ⟨m.encode :: s.writer.chunks, none⟩ }

variable {s t u : Session} {messages later : List ServerMessage} {bound : Nat}

theorem Says.refl (s : Session) : s.Says s [] := ⟨rfl, rfl, rfl, rfl⟩

theorem Says.trans (first : s.Says t messages) (second : t.Says u later) :
    s.Says u (messages ++ later) where
  chunks := by rw [second.chunks, first.chunks, List.map_append, List.reverse_append, List.append_assoc]
  mirrors := second.mirrors.trans first.mirrors
  closable := second.closable.trans first.closable
  closings := second.closings.trans first.closings

theorem Says.bytes (adds : s.Says t messages) :
    t.writer.bytes = s.writer.bytes ++ messages.flatMap ServerMessage.encode := by
  rw [Host.Sink.bytes, adds.chunks, List.reverse_append, List.reverse_reverse, List.flatten_append,
    Host.Sink.bytes, List.flatMap_def]

/-- Every message of a live session arrives. -/
theorem Live.send (live : s.Live) (m : ServerMessage) : s.send m = .ok (s.told m) := by
  simp only [Session.send, Host.Sink.write, live.writes, Host.spend]
  rfl

theorem Live.told (live : s.Live) (m : ServerMessage) : (s.told m).Live :=
  ⟨live.unfinished, live.reads, rfl⟩

theorem says_told (s : Session) (m : ServerMessage) : s.Says (s.told m) [m] := ⟨rfl, rfl, rfl, rfl⟩

theorem Live.resume (live : s.Live) : s.resume.Live ∧ s.Says s.resume [] := by
  unfold Session.resume
  split
  · exact ⟨⟨by simp, live.reads, live.writes⟩, ⟨rfl, rfl, rfl, rfl⟩⟩
  · exact ⟨live, .refl s⟩

/-- Waiting for a command tells the client nothing, and does not fail. -/
theorem Live.readCommandFrom (live : s.Live) (bound : Nat) :
    (s.readCommandFrom bound).2.Live ∧ s.Says (s.readCommandFrom bound).2 [] ∧
      ∀ error, (s.readCommandFrom bound).1 ≠ .failed error := by
  induction bound generalizing s with
  | zero => exact ⟨live, .refl s, by simp [Session.readCommandFrom]⟩
  | succ bound ih =>
    obtain ⟨⟨pending, complete, budget⟩, writer, state, detached, mirrors, closable, closings⟩ := s
    obtain ⟨unfinished, rfl, writes⟩ := live
    cases pending with
    | nil =>
      cases complete with
      | true =>
        refine ⟨⟨by simp [Session.readCommandFrom, Host.LineSource.read, Host.spend], rfl, writes⟩,
          ⟨rfl, rfl, rfl, rfl⟩, ?_⟩
        simp [Session.readCommandFrom, Host.LineSource.read, Host.spend]
      | false =>
        refine ⟨⟨unfinished, rfl, writes⟩, ⟨rfl, rfl, rfl, rfl⟩, ?_⟩
        simp [Session.readCommandFrom, Host.LineSource.read, Host.spend]
    | cons line rest =>
      have passed : Live ⟨⟨rest, complete, none⟩, writer, state, detached, mirrors, closable, closings⟩ :=
        ⟨unfinished, rfl, writes⟩
      simp only [Session.readCommandFrom, Host.LineSource.read, Host.spend]
      split
      · obtain ⟨live', adds, served⟩ := ih passed
        exact ⟨live', ⟨adds.chunks, adds.mirrors, adds.closable, adds.closings⟩, served⟩
      · split
        · exact ⟨passed, ⟨rfl, rfl, rfl, rfl⟩, by simp⟩
        · exact ⟨passed, ⟨rfl, rfl, rfl, rfl⟩, by simp⟩

end Debug.Session

namespace Machine

open Debug (ServerMessage Session)

variable {m n k : Machine} {session : Session} {s : Statement} {next : Block}
  {messages later : List ServerMessage}

/-- What leads from one machine to another tells the client so much, and leaves the rest of the world
as it was. -/
def Tells (m n : Machine) (messages : List ServerMessage) : Prop :=
  ∃ s t : Session, m.world.session = some s ∧ n.world = { m.world with session := some t } ∧ t.Live ∧
    s.Says t messages

/-- The client of a live session. -/
def Accompanied (m : Machine) : Prop := ∃ s, m.world.session = some s ∧ s.Live

theorem Accompanied.still (accompanied : m.Accompanied) (same : n.world = m.world) :
    m.Tells n [] := by
  obtain ⟨s, client, live⟩ := accompanied
  exact ⟨s, s, client, by rw [same, ← client], live, .refl s⟩

theorem Tells.accompanied (tells : m.Tells n messages) : n.Accompanied := by
  obtain ⟨s, t, -, world, live, -⟩ := tells
  exact ⟨t, by rw [world], live⟩

/-- Showing a state is one message. -/
theorem showState_live (client : m.world.session = some session) (live : session.Live)
    (s : Statement) : m.showState s = { m with
      phase := .paused
      world := { m.world with
        session := some ({ session with state := .paused }.told (.state (m.snapshot s))) } } := by
  have live' : { session with state := .paused }.Live := ⟨by simp, live.reads, live.writes⟩
  simp only [showState, withSession, client, Session.sendState, live'.send]

theorem Accompanied.showState (accompanied : m.Accompanied) (s : Statement) :
    m.Tells (m.showState s) [.state (m.snapshot s)] := by
  obtain ⟨session, client, live⟩ := accompanied
  rw [showState_live client live]
  exact ⟨session, _, client, rfl, ⟨by simp [Session.told], live.reads, rfl⟩, ⟨rfl, rfl, rfl, rfl⟩⟩

/-- The statement that a pause shows, and the tape as it is then. -/
def Shows (m : Machine) (snapshot : Debug.Snapshot) : Prop :=
  ∃ (k : Machine) (s : Statement) (next : Block), k.frame = m.frame ∧ m.tape.Keeps k.tape ∧
    m.frame.rest.uncons? = some (s, next) ∧ snapshot = k.snapshot s

/-- A client that is told nothing, or where the program paused. -/
def Pauses (m n : Machine) : Prop :=
  m.Tells n [] ∨ ∃ snapshot, m.Shows snapshot ∧ m.Tells n [.state snapshot]

theorem Accompanied.look (accompanied : m.Accompanied) (first : m.frame.rest.uncons? = some (s, next)) :
    m.Pauses (m.look s) := by
  unfold Machine.look
  split
  · dsimp only
    split
    · right
      have shown := Accompanied.showState (m := { m with
        steering := (m.steering.shouldPause m.site s.head.marked).2.entered m.site }) accompanied s
      exact ⟨_, ⟨_, s, next, rfl, .refl _, first, rfl⟩, shown⟩
    · exact .inl (accompanied.still rfl)
  · exact .inl (accompanied.still rfl)

/-- A pause that ends tells the client nothing. -/
theorem Accompanied.proceed (accompanied : m.Accompanied) : m.Tells m.proceed [] := by
  obtain ⟨session, client, live⟩ := accompanied
  obtain ⟨live', adds⟩ := live.resume
  exact ⟨session, session.resume, client, by simp only [Machine.proceed, client, Option.map_some],
    live', adds⟩

theorem Accompanied.stepOut (accompanied : m.Accompanied) : m.Tells m.stepOut [] := by
  have told := Accompanied.proceed (m := { m with steering := m.steering.resume }) accompanied
  obtain ⟨s, t, client, same, live, adds⟩ := told
  exact ⟨s, t, client, (stepOut_world m).trans same, live, adds⟩

/-- A command is answered with a new state, or ends the pause, or is ignored. -/
theorem Accompanied.answer (accompanied : m.Accompanied)
    (first : m.frame.rest.uncons? = some (s, next)) (c : Debug.Command) : m.Pauses (m.answer s c) := by
  unfold Machine.answer
  split
  · exact .inl (accompanied.still rfl)
  · exact .inl (Accompanied.proceed (m := m.armAhead 1) accompanied)
  · exact .inl (Accompanied.proceed (m := m.armAhead 2) accompanied)
  · split
    next tape _ => exact .inl (Accompanied.proceed (m := { m with tape }.armAhead 1) accompanied)
    next => exact .inl (accompanied.still rfl)
  · exact .inl (Accompanied.proceed (m := { m with steering := m.steering.resume }) accompanied)
  · exact .inl accompanied.stepOut
  · split
    · split
      next tape stored =>
        right
        have shown := Accompanied.showState (m := { m with tape }) accompanied s
        exact ⟨_, ⟨{ m with tape }, s, next, rfl, .store stored, first, rfl⟩, shown⟩
      next => exact .inl (accompanied.still rfl)
    · exact .inl (accompanied.still rfl)

theorem Accompanied.hear (accompanied : m.Accompanied) (first : m.frame.rest.uncons? = some (s, next)) :
    m.Pauses (m.hear s) := by
  obtain ⟨session, client, live⟩ := accompanied
  obtain ⟨live', adds, served⟩ := live.readCommandFrom (session.reader.pending.length + 1)
  simp only [Machine.hear, withSession, client, Session.readCommand]
  generalize session.readCommandFrom (session.reader.pending.length + 1) = heard at live' adds served
  obtain ⟨heard, session'⟩ := heard
  dsimp only at live' adds served ⊢
  cases heard with
  | waiting => exact .inl ⟨session, session', client, rfl, live', adds⟩
  | gone => exact .inl ⟨session, session', client, rfl, live', adds⟩
  | failed error => exact absurd rfl (served error)
  | refused fault => cases fault <;> exact .inl ⟨session, session', client, rfl, live', adds⟩
  | command c =>
    have heard : Accompanied { m with world := { m.world with session := some session' } } :=
      ⟨session', rfl, live'⟩
    rcases heard.answer first c with ⟨_, t, same, world, live'', adds'⟩ |
      ⟨snapshot, shown, _, t, same, world, live'', adds'⟩
    · obtain rfl := Option.some.inj same
      exact .inl ⟨session, t, client, world, live'', adds.trans adds'⟩
    · obtain rfl := Option.some.inj same
      exact .inr ⟨snapshot, shown, session, t, client, world, live'', adds.trans adds'⟩

/-- Unless a statement acts, a step tells the client nothing but where the program paused. -/
theorem step_tells (accompanied : m.Accompanied) (still : m.phase = .ready → m.step.world = m.world) :
    m.Pauses m.step := by
  cases phase : m.phase with
  | halted outcome =>
    have same : m.step = m := by simp only [Machine.step, phase]
    exact .inl (accompanied.still (by rw [same]))
  | ready => exact .inl (accompanied.still (still phase))
  | arriving =>
    simp only [Machine.step, phase]
    split
    next s next first => exact accompanied.look first
    next => exact .inl (accompanied.still (endBlock_world m))
  | paused =>
    simp only [Machine.step, phase]
    split
    next s next first => exact accompanied.hear first
    next => exact .inl (accompanied.still rfl)

/-- What is shown is read back as it was. -/
theorem Shows.sound {snapshot : Debug.Snapshot} (shows : m.Shows snapshot)
    (brief : m.Within Block.IsBrief) (inside : m.tape.InBounds) (size : m.tape.size = Tape.standardSize) :
    (ServerMessage.state snapshot).Sound := by
  obtain ⟨k, s, next, frame, kept, first, rfl⟩ := shows
  have here := (brief m.frame List.mem_cons_self).2
  rw [← frame] at here first
  exact sound_snapshot here (kept.2 inside) (kept.1.trans size) first

end Machine
end TapeLang

import TapeLang.Machine.Run
import TapeLang.Proofs.Offline

/-!
What becomes of the report of a failure. It is sent to the client as a message, unless the client sees
the console anyway. Nothing else about a report can go wrong: that the error stream does not take it is
passed over. So a failure ends the run with exit code one, but for a client that the report does not
reach (`conclude_failed`).
-/
namespace TapeLang

open Debug (Session)

/-! ## Sessions -/

theorem Host.Sink.write_eq_error_iff {s : Sink} (bytes : List UInt8) :
    s.write bytes = .error e ↔ e = .inputOutput ∧ spend s.budget = none := by
  unfold write
  cases spend s.budget <;> simp [eq_comm]

namespace Debug.Session

variable {s t u : Session}

theorem send_eq_error_iff {message : ServerMessage} :
    s.send message = .error e ↔ e = .inputOutput ∧ Host.spend s.writer.budget = none := by
  rw [← Host.Sink.write_eq_error_iff message.encode]
  unfold Session.send
  cases s.writer.write message.encode <;> simp

/-- What a session becomes over a run: no more than before is to be read, and its client sees the console
as before. -/
structure Becomes (s t : Session) : Prop where
  pending : t.reader.pending <:+ s.reader.pending
  complete : t.reader.complete = s.reader.complete
  mirrors : t.mirrors = s.mirrors

theorem Becomes.of_same (pending : t.reader.pending = s.reader.pending)
    (complete : t.reader.complete = s.reader.complete) (mirrors : t.mirrors = s.mirrors) :
    s.Becomes t :=
  ⟨pending ▸ List.suffix_refl _, complete, mirrors⟩

theorem Becomes.refl (s : Session) : s.Becomes s := .of_same rfl rfl rfl

theorem Becomes.trans (first : s.Becomes t) (second : t.Becomes u) : s.Becomes u where
  pending := second.pending.trans first.pending
  complete := second.complete.trans first.complete
  mirrors := second.mirrors.trans first.mirrors

theorem becomes_send {message : ServerMessage} (sent : s.send message = .ok t) : s.Becomes t := by
  unfold Session.send at sent
  split at sent
  · obtain rfl := Except.ok.inj sent
    exact .of_same rfl rfl rfl
  · simp at sent

theorem becomes_writeStream {bytes : List UInt8} {name : Text}
    (streamed : s.writeStream bytes name = .ok t) : s.Becomes t := by
  unfold Session.writeStream at streamed
  split at streamed
  · obtain rfl := Except.ok.inj streamed
    exact .refl s
  · exact becomes_send streamed

theorem becomes_writeThrough {bytes : List UInt8} {name : Text} {length : Nat}
    (through : s.writeThrough bytes name = .ok (length, t)) : s.Becomes t := by
  unfold Session.writeThrough at through
  split at through
  · obtain ⟨-, rfl⟩ := Prod.mk.inj (Except.ok.inj through)
    exact .refl s
  · obtain ⟨later, streamed, same⟩ := ok_of_map_ok through
    obtain ⟨-, rfl⟩ := Prod.mk.inj same
    exact becomes_writeStream streamed

theorem becomes_sendState (s : Session) (snapshot : Snapshot) :
    s.Becomes (s.sendState snapshot).1 := by
  have paused : s.Becomes { s with state := .paused } := .of_same rfl rfl rfl
  unfold Session.sendState
  dsimp only
  cases sent : Session.send { s with state := .paused } (.state snapshot) with
  | ok t => exact paused.trans (becomes_send sent)
  | error => exact paused

theorem becomes_resume (s : Session) : s.Becomes s.resume := by
  unfold Session.resume
  split
  · exact .of_same rfl rfl rfl
  · exact .refl s

theorem becomes_readCommandFrom (s : Session) (bound : Nat) :
    s.Becomes (s.readCommandFrom bound).2 := by
  have read (s : Session) : s.Becomes { s with reader := s.reader.read.2 } := by
    unfold Host.LineSource.read
    split
    · exact .refl s
    · split
      next line rest same =>
        refine ⟨?_, rfl, rfl⟩
        rw [same]
        exact List.suffix_cons line rest
      next => split <;> exact .of_same rfl rfl rfl
  induction bound generalizing s with
  | zero => exact .refl s
  | succ bound ih =>
    have first := read s
    unfold Session.readCommandFrom
    generalize s.reader.read = found at first
    obtain ⟨found, reader⟩ := found
    cases found with
    | failed | waiting => exact first
    | finished => exact ⟨first.pending, first.complete, first.mirrors⟩
    | line line =>
      dsimp only
      split
      · exact first.trans (ih _)
      · split <;> exact first

end Debug.Session

/-! ## The report -/

namespace World

variable {w v u : World} {session : Session}

/-- An attached client is to be told of a failure, and its stream takes no more messages. -/
def Unheard (w : World) : Prop :=
  ∃ session, w.session = some session ∧ session.attached = true ∧ session.mirrors = false ∧
    Host.spend session.writer.budget = none

theorem send_served (served : Host.spend session.writer.budget = some budget)
    (message : Debug.ServerMessage) :
    session.send message =
      .ok { session with writer := ⟨message.encode :: session.writer.chunks, budget⟩ } := by
  simp only [Session.send, Host.Sink.write, served]

/-- What a session does with a report, while it is attached. -/
theorem reportError_attached (attached : session.attached = true) (text : String) :
    session.reportError text =
      if session.mirrors then .ok session
      else session.send (.ofBytes (Text.Utf8.encodeString text) Debug.stdErr) := by
  have unfinished : session.state ≠ .finished := by
    simp only [Session.attached, Bool.and_eq_true, bne_iff_ne] at attached
    exact attached.2
  simp only [Session.reportError, Session.writeStream, unfinished, ↓reduceIte]

/-- The error stream of a console with streams of its own does not touch the session. -/
theorem session_writeError (own : w.console.forwarded = false) (text : String) :
    ((w.writeError text).toOption.getD w).session = w.session := by
  cases written : w.writeError text with
  | ok v => exact (keeps_writeConsole written).session own
  | error => rfl

/-- A report is dropped or passed on, but for a client that it does not reach. -/
theorem reportError_own (own : w.console.forwarded = false) (text : String) :
    (w.reportError text).2 = .ok () ∧ ¬ w.Unheard ∨
      (w.reportError text).2 = .error (.os .inputOutput) ∧ w.Unheard := by
  have kept := session_writeError own text
  unfold reportError Unheard
  cases client : w.session with
  | none => simp [kept, client]
  | some session =>
    cases attached : session.attached with
    | false => simp [kept, client, attached]
    | true =>
      simp only [kept, client, attached, reportError_attached attached, ↓reduceIte]
      cases mirrors : session.mirrors with
      | true => simp [mirrors]
      | false =>
        cases broken : Host.spend session.writer.budget with
        | none => simp [Session.send_eq_error_iff.mpr ⟨rfl, broken⟩, attached, mirrors, broken]
        | some budget => simp [send_served broken, attached, broken]

/-- A console that forwards what is written writes to the session. -/
theorem session_writeConsole (written : w.writeConsole stream bytes = .ok v)
    (client : w.session = some session) :
    ∃ later : Session, v.session = some later ∧ session.Becomes later := by
  cases own : w.console.forwarded with
  | false => exact ⟨session, ((keeps_writeConsole written).session own).trans client, .refl session⟩
  | true =>
    simp only [writeConsole, own, client, ↓reduceIte] at written
    obtain ⟨⟨length, later⟩, through, rfl⟩ := ok_of_map_ok written
    exact ⟨later, rfl, Session.becomes_writeThrough through⟩

/-- What a run makes of its client and of the way to the console. -/
structure Continues (w v : World) : Prop where
  forwarded : v.console.forwarded = w.console.forwarded
  session : ∀ t, v.session = some t → ∃ s, w.session = some s ∧ s.Becomes t

theorem Continues.of_same (forwarded : v.console.forwarded = w.console.forwarded)
    (session : v.session = w.session) : w.Continues v :=
  ⟨forwarded, fun t client => ⟨t, session ▸ client, .refl t⟩⟩

theorem Continues.refl (w : World) : w.Continues w := .of_same rfl rfl

theorem Continues.trans (first : w.Continues v) (second : v.Continues u) : w.Continues u where
  forwarded := second.forwarded.trans first.forwarded
  session t client := by
    obtain ⟨s, client, becomes⟩ := second.session t client
    obtain ⟨r, client, becomes'⟩ := first.session s client
    exact ⟨r, client, becomes'.trans becomes⟩

/-- The client goes on as one that it may become. -/
theorem Continues.of_becomes {s t : Session} (client : w.session = some s) (becomes : s.Becomes t) :
    w.Continues { w with session := some t } :=
  ⟨rfl, fun _ same => ⟨s, client, Option.some.inj same ▸ becomes⟩⟩

theorem continues_writeByte (written : w.writeByte byte endpoint = .ok v) : w.Continues v := by
  cases endpoint with
  | console =>
    have keeps := keeps_writeConsole written
    refine ⟨keeps.forwarded, fun t client => ?_⟩
    cases before : w.session with
    | none => simp [keeps.solo before] at client
    | some s =>
      obtain ⟨later, after, becomes⟩ := session_writeConsole written before
      obtain rfl := Option.some.inj (after.symm.trans client)
      exact ⟨s, rfl, becomes⟩
  | file | connection =>
    obtain rfl := Except.ok.inj written
    exact .of_same rfl rfl

theorem continues_writeEach (byte : UInt8) (endpoints : List Endpoint) (w : World) :
    w.Continues (w.writeEach byte endpoints).1 := by
  induction endpoints generalizing w with
  | nil => exact .refl w
  | cons endpoint rest ih =>
    unfold writeEach
    split
    next v written => exact (continues_writeByte written).trans (ih v)
    next => exact .refl w

/-- Writing to the console does not change whether the client sees it. -/
theorem mirrors_writeError (client : w.session = some session) (text : String) :
    ∃ later : Session, ((w.writeError text).toOption.getD w).session = some later ∧
      later.mirrors = session.mirrors := by
  cases written : w.writeError text with
  | error => exact ⟨session, client, rfl⟩
  | ok v =>
    obtain ⟨later, kept, becomes⟩ := session_writeConsole written client
    exact ⟨later, kept, becomes.mirrors⟩

/-- A client that sees the console is not told again. -/
theorem reportError_mirrored (client : w.session = some session) (mirrors : session.mirrors = true)
    (text : String) : (w.reportError text).2 = .ok () := by
  obtain ⟨later, kept, mirrors'⟩ := mirrors_writeError client text
  unfold reportError
  simp only [kept, Session.reportError, mirrors', mirrors, ↓reduceIte]
  split <;> rfl

/-- A report goes through where the client sees the console, or takes the message. -/
theorem reportError_heard (client : w.session = some session)
    (heard : session.mirrors = true ∨ w.console.forwarded = false ∧ ¬ w.Unheard) (text : String) :
    (w.reportError text).2 = .ok () := by
  rcases heard with mirrors | ⟨own, heard⟩
  · exact reportError_mirrored client mirrors text
  · rcases reportError_own own text with ⟨told, -⟩ | ⟨-, unheard⟩
    · exact told
    · exact absurd unheard heard

/-- Whether the listener can be closed depends on the traffic alone. -/
theorem closeListener_own (w : World) (console : Console) (session : Option Session) :
    ({ w with console, session } : World).closeListener.2 = w.closeListener.2 := by
  unfold closeListener
  dsimp only
  cases w.listener with
  | none => rfl
  | some id => cases shut : w.traffic.closeListener id <;> simp [shut]

/-- A report changes nothing but what was said on the console and to the client. -/
theorem reportError_world (w : World) (text : String) :
    ∃ console session, (w.reportError text).1 = { w with console, session } := by
  have ⟨console, session, same⟩ : ∃ console session,
      (w.writeError text).toOption.getD w = { w with console, session } := by
    cases written : w.writeError text with
    | ok v => exact writeConsole_world written
    | error => exact ⟨_, _, rfl⟩
  unfold reportError
  dsimp only
  split
  · split
    · split
      · exact ⟨_, _, by rw [same]⟩
      · exact ⟨_, _, same⟩
    · exact ⟨_, _, same⟩
  · exact ⟨_, _, same⟩

end World

namespace Machine

variable {m : Machine} {failure : Failure} {position : Source.Position}

theorem settleOutcome_world (w : World) (path : String) (outcome : Outcome) :
    ∃ console session, (settleOutcome w path outcome).1 = { w with console, session } := by
  cases outcome with
  | completed | steppedOut | broken => exact ⟨_, _, rfl⟩
  | failed failure position =>
    obtain ⟨console, session, same⟩ := World.reportError_world w (failure.located position path).report
    refine ⟨console, session, ?_⟩
    rw [← same]
    simp only [settleOutcome]
    generalize w.reportError _ = reported
    obtain ⟨v, reported⟩ := reported
    cases reported <;> rfl

/-- The release at the end of a run does not change its result, unless the listener cannot be closed. -/
theorem conclude_result (closes : m.world.closeListener.2 = .ok ()) (path : String) (outcome : Outcome) :
    (m.conclude path outcome).2 = (settleOutcome m.world path outcome).2 := by
  obtain ⟨console, session, same⟩ := settleOutcome_world m.world path outcome
  have closed : (settleOutcome m.world path outcome).1.closeListener.2 = .ok () := by
    rw [same, World.closeListener_own, closes]
  simp only [conclude, World.release, World.close, closed]

/-- A failure whose report goes through ends the run with exit code one. -/
theorem conclude_failed (closes : m.world.closeListener.2 = .ok ()) (path : String)
    (told : (m.world.reportError (failure.located position path).report).2 = .ok ()) :
    (m.conclude path (.failed failure position)).2 = .ok 1 := by
  rw [conclude_result closes, settleOutcome]
  generalize m.world.reportError _ = reported at told
  obtain ⟨v, reported⟩ := reported
  obtain rfl : reported = .ok () := told
  rfl

end Machine
end TapeLang

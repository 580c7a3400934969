import Mathlib
import TapeLang.Proofs.Dialogue.Following

/-!
A debugger and the program it debugs are in lock step. Halts and commands take turns, an idle debugger
knows where the program stands, every command that is heard is acted on, and never does each of the two
wait for the other (`Dialogue.lock_step`).
-/
namespace TapeLang

open Client (Activity Control Halt Transport)
open Debug (Command ServerMessage Session)
open Dialogue (Event)
open Source (Block Statement)

/-- Halts and commands take turns, and a halt is first. -/
def TakeTurns (log : List Event) : Prop :=
  ∀ i (inside : i < log.length), log[i].halt?.isSome = true ↔ i % 2 = 0

namespace Dialogue

variable {d : Dialogue}

/-- An idle debugger knows the state of the program, which is paused, or its exit code. -/
inductive Informed (d : Dialogue) : Prop where
  | paused {m : Machine} {s : Statement} {next : Block} (server : d.server = .running m)
      (paused : m.phase = .paused) (here : m.frame.rest.uncons? = some (s, next))
      (state : d.client.context.lastState = some (m.snapshot s))
      (going : d.client.context.exitCode = none)
  | exited {w : World} {result : Except Fault Int} (server : d.server = .finished w result)
      (code : d.client.context.exitCode = some (result.toOption.getD 1))
      (state : d.client.context.lastState = none)

/-- The debugger and the program are in lock step. -/
structure InLockStep (d : Dialogue) : Prop where
  turns : TakeTurns d.log
  /-- all that the client has sent was heard in this order, but for one command at most -/
  sent : ∃ later : List Control, later.length ≤ 1 ∧ d.client.sent =
    (d.log.filterMap Event.command?).flatMap Command.encode ++ later.flatMap (·.command.encode)
  informed : d.client.activity = .idle → d.client.context.transport.isSome = true → d.Informed
  /-- a paused program acts on the next command -/
  heeds : ∀ {m : Machine}, d.server = .running m → m.phase = .paused → m.awaitsCommand = false →
    ∃ (control : Control) (s : Statement) (next : Block), control.problem? = none ∧
      d.server.session.reader.pending.head? = some control.command.encode ∧
        m.frame.rest.uncons? = some (s, next) ∧ m.step = m.afterLine.heed s control
  /-- unless something is on its way, one of the two goes on -/
  goesOn : d.toServer = [] → d.toClient = [] → d.server.blocked = true → d.client.blocked = false

/-- Nothing will come to the client any more. -/
def IsOver (d : Dialogue) : Prop := (∃ w result, d.server = .finished w result) ∧ d.toClient = []

/-- The client has not connected, or follows what it is told. -/
inductive Meets (d : Dialogue) (told : List ServerMessage) (sent : Nat) : Prop where
  | apart {w : World} {text : Text} (server : d.server = .accepting w text)
      (transport : d.client.context.transport = none) (idle : d.client.activity = .idle)
      (none : sent = 0) (delivered : d.delivered = 0) (state : d.client.context.lastState = .none)
      (code : d.client.context.exitCode = .none)
  | joined {transport : Transport} {taken rest : List ServerMessage}
      (follows : d.client.Follows told d.toClient sent d.IsOver transport taken rest)

/-- What both sides have said and heard: everything the client was told, and the commands that were
heard, that have arrived, and that are on their way. -/
structure Orderly (d : Dialogue) (told : List ServerMessage) (heard lines coming : List Control) :
    Prop where
  server : d.server.Serves lines told
  accepted : ∀ control ∈ heard ++ lines ++ coming, control.problem? = none
  sent : d.client.sent = (heard ++ lines ++ coming).flatMap (·.command.encode)
  unbroken : 0xA ∉ d.begun
  arriving : d.begun ++ d.toServer = coming.flatMap (·.command.encode)
  arrived : d.arrived ≤ d.client.sent.length
  delivered : d.delivered ≤ d.server.session.writer.bytes.length
  commands : d.log.filterMap Event.command? = heard.map (·.command)
  halts : d.log.filterMap Event.halt? = told.filterMap Halt.ofMessage?
  turns : TakeTurns d.log
  balance : (told.filterMap Halt.ofMessage?).length = heard.length + d.server.halted.toNat
  client : d.Meets told (heard ++ lines ++ coming).length

end Dialogue

/-! ## Turns -/

namespace TakeTurns

variable {log : List Event} {event : Event}

theorem append (turns : TakeTurns log) (fits : event.halt?.isSome = true ↔ log.length % 2 = 0) :
    TakeTurns (log ++ [event]) := by
  intro i inside
  by_cases earlier : i < log.length
  · rw [List.getElem_append_left earlier]
    exact turns i earlier
  · have last : i = log.length := by
      simp only [List.length_append, List.length_singleton] at inside
      omega
    subst last
    simpa using fits

/-- What happens in one step of a run keeps the turns. -/
theorem exchange {before after : Bool} {heard : List Control} {halts : List Halt} {n : Nat}
    (turns : TakeTurns log) (turn : Launch.Turn before after heard halts)
    (length : log.length = 2 * n + before.toNat) :
    TakeTurns (log ++ Event.record (heard.map (·.command)) halts) := by
  cases turn with
  | quiet same => simpa [Event.record] using turns
  | halt went stands halt =>
    subst went
    exact turns.append (by simp [Event.halt?, length])
  | hear stood goes control =>
    subst stood
    exact turns.append (by simp [Event.halt?, length])
  | answer stood stands control halt =>
    subst stood
    have first : TakeTurns (log ++ [.heard control.command]) :=
      turns.append (by simp [Event.halt?, length])
    have even : (log ++ [Event.heard control.command]).length % 2 = 0 := by
      simp only [List.length_append, length, List.length_singleton, Bool.toNat_true]
      omega
    have second : TakeTurns (log ++ [.heard control.command] ++ [.told halt]) :=
      first.append (iff_of_true rfl even)
    simpa [Event.record] using second

end TakeTurns

/-- Every event is a halt or a command. -/
theorem length_log (log : List Event) :
    log.length = (log.filterMap Event.halt?).length + (log.filterMap Event.command?).length := by
  induction log with
  | nil => rfl
  | cons event rest ih =>
    cases event with
    | told halt =>
      have told : (Event.told halt).halt? = some halt ∧ (Event.told halt).command? = none := ⟨rfl, rfl⟩
      simp only [List.length_cons, ih, List.filterMap_cons_some told.1,
        List.filterMap_cons_none told.2]
      omega
    | heard command =>
      have heard : (Event.heard command).halt? = none ∧ (Event.heard command).command? = some command :=
        ⟨rfl, rfl⟩
      simp only [List.length_cons, ih, List.filterMap_cons_none heard.1,
        List.filterMap_cons_some heard.2]
      omega

/-- Halts and commands are told apart in the record of a step. -/
theorem filterMap_record (commands : List Command) (halts : List Halt) :
    (Event.record commands halts).filterMap Event.command? = commands ∧
      (Event.record commands halts).filterMap Event.halt? = halts := by
  constructor <;> simp [Event.record, List.filterMap_append, List.filterMap_map, Function.comp_def,
    Event.command?, Event.halt?]

/-- Nothing new is recorded of a run that stays. -/
theorem Launch.eventsSince_self (launch : Launch) : launch.eventsSince launch = [] := by
  simp [Launch.eventsSince, Event.record, Session.commandsSince, Session.haltsSince]

/-- How halts and commands are counted against each other. -/
theorem Launch.Turn.balance {before after : Bool} {heard : List Control} {halts : List Halt}
    (turn : Turn before after heard halts) :
    halts.length + before.toNat = heard.length + after.toNat := by
  cases turn with
  | quiet same => simp [same]
  | halt went stands => simp [went, stands]
  | hear stood goes => simp [stood, goes]
  | answer stood stands => simp [stood, stands]

namespace Dialogue

variable {d : Dialogue} {path : String} {told : List ServerMessage}
  {heard lines coming : List Control} {w : World} {text : Text}

/-! ## Steps -/

/-- Before the first step nothing is said. -/
theorem orderly_initial (prepared : Launch.Prepared w text) :
    Orderly { server := .accepting w text } [] [] [] [] where
  server := .accepting prepared
  accepted := by simp
  sent := rfl
  unbroken := by simp
  arriving := rfl
  arrived := Nat.le_refl 0
  delivered := Nat.zero_le _
  commands := rfl
  halts := rfl
  turns := fun i inside => absurd inside (Nat.not_lt_zero i)
  balance := rfl
  client := .apart rfl rfl rfl rfl rfl rfl rfl

theorem Orderly.length_log (orderly : d.Orderly told heard lines coming) :
    d.log.length = 2 * heard.length + d.server.halted.toNat := by
  rw [TapeLang.length_log, orderly.halts, orderly.commands, orderly.balance, List.length_map]
  omega

/-- The bytes on the way when more is said. -/
theorem Orderly.toClient_eq (orderly : d.Orderly told heard lines coming) :
    d.toClient = (told.flatMap ServerMessage.encode).drop d.delivered := by
  rw [Dialogue.toClient, orderly.server.bytes]

/-- A step of the server that the client is there for, or that changes nothing. -/
theorem Orderly.serve (orderly : d.Orderly told heard lines coming) (path : String) :
    ∃ told heard lines, (d.serve path).Orderly told heard lines coming := by
  have stays (same : d.server.serve path d.client.context.transport.isSome = d.server) :
      d.serve path = d := by
    simp only [Dialogue.serve, same, Launch.eventsSince_self, List.append_nil]
  by_cases rests : d.server.serve path d.client.context.transport.isSome = d.server
  · rw [stays rests]
    exact ⟨told, heard, lines, orderly⟩
  obtain ⟨heard', later, said, rfl, serves, turn⟩ :=
    orderly.server.serve path d.client.context.transport.isSome
  have accepted : ∀ control ∈ heard', control.problem? = none :=
    fun control member => orderly.accepted control (by simp [member])
  have events := orderly.server.eventsSince serves accepted
  have log : (d.serve path).log = d.log ++
      Event.record (heard'.map (·.command)) (said.filterMap Halt.ofMessage?) := by
    rw [← events]
    rfl
  have same : heard ++ (heard' ++ later) ++ coming = heard ++ heard' ++ later ++ coming := by
    simp only [List.append_assoc]
  have longer : (d.serve path).toClient = d.toClient ++ said.flatMap ServerMessage.encode := by
    have within := orderly.delivered
    rw [orderly.server.bytes] at within
    rw [orderly.toClient_eq, toClient, ← List.drop_append_of_le_length within,
      ← List.flatMap_append, ← serves.bytes]
    rfl
  refine ⟨told ++ said, heard ++ heard', later, ?_⟩
  constructor
  · exact serves
  · rw [← same]
    exact orderly.accepted
  · rw [← same]
    exact orderly.sent
  · exact orderly.unbroken
  · exact orderly.arriving
  · exact orderly.arrived
  · have within := orderly.delivered
    have bytes : (d.serve path).server.session.writer.bytes =
        (told ++ said).flatMap ServerMessage.encode := serves.bytes
    rw [orderly.server.bytes] at within
    rw [bytes, List.flatMap_append, List.length_append]
    exact Nat.le_add_right_of_le within
  · rw [log, List.filterMap_append, orderly.commands, (filterMap_record _ _).1, List.map_append]
  · rw [log, List.filterMap_append, orderly.halts, (filterMap_record _ _).2, List.filterMap_append]
  · rw [log]
    exact orderly.turns.exchange turn orderly.length_log
  · have before := orderly.balance
    have after := turn.balance
    have halted : (d.serve path).server.halted =
        (d.server.serve path d.client.context.transport.isSome).halted := rfl
    rw [halted, List.filterMap_append, List.length_append, List.length_append]
    omega
  · rw [← same]
    cases orderly.client with
    | apart server transport =>
      refine absurd ?_ rests
      rw [server, transport]
      rfl
    | joined follows =>
      have goesOn : ¬ d.IsOver := by
        rintro ⟨⟨w, result, finished⟩, -⟩
        refine rests ?_
        rw [finished]
        rfl
      have receives := follows.receives.more goesOn said (d.serve path).IsOver
      rw [← longer] at receives
      exact .joined ⟨receives, follows.fits⟩

/-- A change at the client's end of the connection, where so many bytes have arrived. -/
theorem Orderly.setTransport (orderly : d.Orderly told heard lines coming) {transport : Transport}
    {delivered : Nat} (within : delivered ≤ d.server.session.writer.bytes.length)
    (client : Meets { d.setTransport transport with delivered } told
      (heard ++ lines ++ coming).length) :
    Orderly { d.setTransport transport with delivered } told heard lines coming :=
  { orderly with
    server := orderly.server
    accepted := orderly.accepted
    sent := orderly.sent
    arriving := orderly.arriving
    arrived := orderly.arrived
    delivered := within
    balance := orderly.balance
    client }

/-- A byte reaches the client. -/
theorem Orderly.deliver (orderly : d.Orderly told heard lines coming) :
    d.deliver.Orderly told heard lines coming := by
  unfold Dialogue.deliver
  split
  next byte more transport first joined =>
    cases orderly.client with
    | apart server apart => simp [apart] at joined
    | joined follows =>
      obtain rfl := Option.some.inj (joined.symm.trans follows.receives.joined)
      have goesOn : ¬ d.IsOver := by
        rintro ⟨-, empty⟩
        simp [first] at empty
      have within : d.delivered + 1 ≤ d.server.session.writer.bytes.length := by
        have some : d.toClient ≠ [] := by simp [first]
        simp only [toClient, ne_eq, List.drop_eq_nil_iff, not_le] at some
        exact some
      refine orderly.setTransport within ?_
      have less : Dialogue.toClient { d.setTransport (transport.receive byte) with
          delivered := d.delivered + 1 } = more := by
        have rest := congrArg List.tail first
        rwa [toClient, List.tail_drop] at rest
      have receives := follows.receives
      rw [first] at receives
      obtain ⟨rest, receives'⟩ := receives.receive goesOn orderly.server.contents.2.2
        (IsOver { d.setTransport (transport.receive byte) with delivered := d.delivered + 1 })
      rw [← less] at receives'
      exact .joined ⟨receives', follows.fits⟩
  next => exact orderly

/-- The client sees the end of the connection. -/
theorem Orderly.close (orderly : d.Orderly told heard lines coming) :
    d.close.Orderly told heard lines coming := by
  unfold Dialogue.close
  split
  next w result transport server empty joined =>
    cases orderly.client with
    | apart _ apart => simp [apart] at joined
    | joined follows =>
      obtain rfl := Option.some.inj (joined.symm.trans follows.receives.joined)
      refine orderly.setTransport orderly.delivered ?_
      exact .joined ⟨follows.receives.finish ⟨⟨w, result, server⟩, empty⟩, follows.fits⟩
  next => exact orderly

/-- A change of what has reached a running program, where every command is still there. -/
theorem Orderly.setArrived (orderly : d.Orderly told heard lines coming) {m : Machine}
    (running : d.server = .running m) {server : Launch} {arrived : Nat} {begun : Host.Line}
    {lines' coming' : List Control} (same : heard ++ lines' ++ coming' = heard ++ lines ++ coming)
    (serves : server.Serves lines' told) (writer : server.session.writer = d.server.session.writer)
    (halted : server.halted = d.server.halted) (unbroken : 0xA ∉ begun)
    (arriving : begun ++ d.client.sent.drop arrived = coming'.flatMap (·.command.encode))
    (within : arrived ≤ d.client.sent.length) :
    Orderly { d with server, arrived, begun } told heard lines' coming' where
  server := serves
  accepted := same ▸ orderly.accepted
  sent := same ▸ orderly.sent
  unbroken := unbroken
  arriving := arriving
  arrived := within
  delivered := by
    rw [writer]
    exact orderly.delivered
  commands := orderly.commands
  halts := orderly.halts
  turns := orderly.turns
  balance := by
    rw [halted]
    exact orderly.balance
  client := by
    rw [same]
    have still : Dialogue.toClient { d with server, arrived, begun } = d.toClient := by
      simp only [toClient, writer]
    cases orderly.client with
    | apart accepting => simp [running] at accepting
    | joined follows =>
      have goesOn : ¬ d.IsOver := by
        rintro ⟨⟨w, result, finished⟩, -⟩
        simp [running] at finished
      have receives := follows.receives.more goesOn [] (IsOver { d with server, arrived, begun })
      simp only [List.append_nil, List.flatMap_nil] at receives
      rw [← still] at receives
      exact .joined ⟨receives, follows.fits⟩

/-- A byte reaches the server. -/
theorem Orderly.arrive (orderly : d.Orderly told heard lines coming) :
    ∃ lines coming, d.arrive.Orderly told heard lines coming := by
  unfold Dialogue.arrive
  split
  next byte more m first server =>
    have within : d.arrived + 1 ≤ d.client.sent.length := by
      have some : d.toServer ≠ [] := by simp [first]
      simp only [toServer, ne_eq, List.drop_eq_nil_iff, not_le] at some
      exact some
    have less : d.client.sent.drop (d.arrived + 1) = more := by
      have rest := congrArg List.tail first
      rwa [toServer, List.tail_drop] at rest
    have arriving := orderly.arriving
    rw [first] at arriving
    dsimp only
    split
    next ends =>
      subst ends
      have lineless : ∀ control ∈ coming, 0xA ∉ Debug.lineOf control.command.fields := by
        intro control member
        have accepted := orderly.accepted control (List.mem_append_right _ member)
        exact Debug.newline_not_mem_lineOf (Control.sound_command accepted).readable
      obtain ⟨control, later, rfl, line, rest⟩ := line_ends orderly.unbroken lineless arriving
      have whole : d.begun ++ [0xA] = control.command.encode := by
        rw [line]
        rfl
      have serves := orderly.server
      rw [server] at serves
      obtain ⟨serves', writer⟩ := serves.receive (orderly.accepted control (by simp))
      have same : heard ++ (lines ++ [control]) ++ later = heard ++ lines ++ control :: later := by
        simp
      refine ⟨lines ++ [control], later, ?_⟩
      rw [whole]
      refine orderly.setArrived server same serves' ?_ ?_ (by simp) ?_ within
      · rw [writer, server]
      · rw [server]
        rfl
      · rw [less, List.nil_append]
        exact rest
    next goes =>
      refine ⟨lines, coming, orderly.setArrived server rfl orderly.server rfl rfl ?_ ?_ within⟩
      · simpa [orderly.unbroken] using Ne.symm goes
      · rw [less, List.append_assoc]
        exact arriving
  next => exact ⟨lines, coming, orderly⟩

/-- A step of the client, which may send a command. -/
theorem Orderly.proceed (orderly : d.Orderly told heard lines coming) {c : Client}
    {rest : List ServerMessage} (proceeds : d.client.Proceeds c told d.toClient
      (heard ++ lines ++ coming).length d.IsOver rest) :
    ∃ coming, Orderly { d with client := c } told heard lines coming := by
  obtain ⟨more, transport, taken, accepted, sent, follows⟩ := proceeds
  have all : heard ++ lines ++ (coming ++ more) = heard ++ lines ++ coming ++ more :=
    (List.append_assoc _ _ _).symm
  refine ⟨coming ++ more, ?_⟩
  constructor
  · exact orderly.server
  · intro control member
    rw [all] at member
    rcases List.mem_append.mp member with earlier | latest
    · exact orderly.accepted control earlier
    · exact accepted control latest
  · rw [all, List.flatMap_append, ← orderly.sent]
    exact sent
  · exact orderly.unbroken
  · have onWay : Dialogue.toServer { d with client := c } =
        d.toServer ++ more.flatMap (·.command.encode) := by
      simp only [toServer, sent, List.drop_append_of_le_length orderly.arrived]
    rw [onWay, ← List.append_assoc, orderly.arriving, List.flatMap_append]
  · have within := orderly.arrived
    simp only [sent, List.length_append]
    omega
  · exact orderly.delivered
  · exact orderly.commands
  · exact orderly.halts
  · exact orderly.turns
  · exact orderly.balance
  · rw [all, List.length_append]
    exact .joined follows

/-- A command is undertaken. The first one connects. -/
theorem Orderly.undertake (orderly : d.Orderly told heard lines coming)
    (idle : d.client.activity = .idle) (control : Control) :
    ∃ coming, Orderly { d with client := d.client.undertake control } told heard lines coming := by
  cases orderly.client with
  | joined follows => exact orderly.proceed (follows.undertake idle control)
  | @apart w text server transport _ none delivered state code =>
    have empty : told = [] ∧ d.toClient = [] := by
      have serves := orderly.server
      rw [server] at serves
      cases serves with
      | accepting prepared =>
        have blank : Launch.session (.accepting w text) = {} := by
          simp only [Launch.session, Launch.world, prepared.alone, Option.getD_none]
        refine ⟨rfl, ?_⟩
        simp [toClient, server, blank, Host.Sink.bytes]
    refine ⟨coming, ?_⟩
    unfold Client.undertake
    split
    next => exact { orderly with
        server := orderly.server
        client := .apart server transport idle none delivered state code }
    next accepted =>
      simp only [transport]
      refine { orderly with server := orderly.server, client := ?_ }
      refine @Meets.joined _ _ _ {} [] [] ⟨⟨rfl, ?_, ?_, ?_, ?_, ?_⟩, ?_⟩
      · simp [empty.1]
      · simp
      · exact empty.2
      · exact .inl rfl
      · exact ⟨state, code⟩
      · exact ⟨rfl, none, accepted⟩

/-- The client takes a message. -/
theorem Orderly.take (orderly : d.Orderly told heard lines coming) :
    ∃ coming, Orderly { d with client := d.client.take } told heard lines coming := by
  cases orderly.client with
  | apart server transport idle =>
    refine ⟨coming, ?_⟩
    rw [Client.take_idle idle]
    exact orderly
  | joined follows =>
    refine orderly.proceed (follows.take ?_)
    rintro ⟨⟨w, result, finished⟩, empty⟩
    have serves := orderly.server
    rw [finished] at serves
    exact ⟨empty, _, serves.exited⟩

/-- Whatever happens, both sides stay in order. -/
theorem Orderly.step (orderly : d.Orderly told heard lines coming) (path : String) (move : Move) :
    ∃ told heard lines coming, (d.step path move).Orderly told heard lines coming := by
  cases move with
  | serve =>
    obtain ⟨told, heard, lines, orderly⟩ := orderly.serve path
    exact ⟨told, heard, lines, coming, orderly⟩
  | deliver => exact ⟨told, heard, lines, coming, orderly.deliver⟩
  | arrive =>
    obtain ⟨lines, coming, orderly⟩ := orderly.arrive
    exact ⟨told, heard, lines, coming, orderly⟩
  | close => exact ⟨told, heard, lines, coming, orderly.close⟩
  | undertake control =>
    simp only [Dialogue.step]
    split
    next idle =>
      obtain ⟨coming, orderly⟩ := orderly.undertake idle control
      exact ⟨told, heard, lines, coming, orderly⟩
    next => exact ⟨told, heard, lines, coming, orderly⟩
  | take =>
    obtain ⟨coming, orderly⟩ := orderly.take
    exact ⟨told, heard, lines, coming, orderly⟩

theorem Reachable.orderly (prepared : Launch.Prepared w text)
    (reachable : Reachable path (.accepting w text) d) :
    ∃ told heard lines coming, d.Orderly told heard lines coming := by
  induction reachable with
  | initial => exact ⟨[], [], [], [], orderly_initial prepared⟩
  | step _ move ih =>
    obtain ⟨told, heard, lines, coming, orderly⟩ := ih
    exact orderly.step path move

/-! ## Lock step -/

/-- What a client has seen, it was told. -/
theorem Orderly.seen (orderly : d.Orderly told heard lines coming) {transport : Transport}
    {taken rest : List ServerMessage} (follows : d.client.Follows told d.toClient
      (heard ++ lines ++ coming).length d.IsOver transport taken rest) :
    (taken.filterMap Halt.ofMessage?).length + (transport.queue.filterMap Halt.ofMessage?).length +
      (rest.filterMap Halt.ofMessage?).length = heard.length + d.server.halted.toNat := by
  rw [← orderly.balance, follows.receives.parts]
  simp only [List.filterMap_append, List.length_append]

/-- At most one command has been sent and not been heard. -/
theorem Orderly.few (orderly : d.Orderly told heard lines coming) :
    (lines ++ coming).length ≤ 1 := by
  have one := d.server.halted.toNat_le
  cases orderly.client with
  | apart _ _ _ none =>
    simp only [List.length_append] at none ⊢
    omega
  | joined follows =>
    have seen := orderly.seen follows
    have fits := follows.fits
    simp only [List.length_append] at fits ⊢
    cases activity : d.client.activity with
    | idle =>
      rw [activity] at fits
      simp only [Activity.Fits] at fits
      omega
    | connecting control =>
      rw [activity] at fits
      have none := fits.2.1
      omega
    | waiting control =>
      rw [activity] at fits
      have same := fits.1
      omega

/-- While the client is idle, the program stands and the client has seen its last halt. -/
theorem Orderly.settled (orderly : d.Orderly told heard lines coming)
    (idle : d.client.activity = .idle) {transport : Transport} {taken rest : List ServerMessage}
    (follows : d.client.Follows told d.toClient (heard ++ lines ++ coming).length d.IsOver transport
      taken rest) :
    d.server.halted = true ∧ Debug.lastHalt? taken = Debug.lastHalt? told := by
  have one := d.server.halted.toNat_le
  have seen := orderly.seen follows
  have fits := follows.fits
  rw [idle] at fits
  simp only [Activity.Fits, List.length_append] at fits
  have stands : d.server.halted.toNat = 1 := by omega
  have queue : transport.queue.filterMap Halt.ofMessage? = [] :=
    List.eq_nil_of_length_eq_zero (by omega)
  have later : rest.filterMap Halt.ofMessage? = [] := List.eq_nil_of_length_eq_zero (by omega)
  refine ⟨Bool.toNat_eq_one.mp stands, ?_⟩
  rw [Debug.lastHalt?, Debug.lastHalt?, follows.receives.parts, List.filterMap_append,
    List.filterMap_append, queue, later, List.append_nil, List.append_nil]

/-- An idle client knows where the program stands. -/
theorem Orderly.informed (orderly : d.Orderly told heard lines coming)
    (idle : d.client.activity = .idle) (connected : d.client.context.transport.isSome = true) :
    d.Informed := by
  cases orderly.client with
  | apart _ transport => simp [transport] at connected
  | joined follows =>
    obtain ⟨stands, last⟩ := orderly.settled idle follows
    obtain ⟨state, code⟩ := follows.receives.knows
    have serves := orderly.server
    rw [last] at state code
    cases server : d.server with
    | accepting w text => simp [server, Launch.halted] at stands
    | running m =>
      rw [server] at serves
      have paused : m.phase = .paused := by simpa [server, Launch.halted] using stands
      cases serves with
      | running serves =>
        obtain ⟨s, next, here, shown⟩ := serves.shown paused
        rw [shown] at state code
        exact .paused server paused here state code
    | finished w result =>
      rw [server] at serves
      rw [serves.exited] at state code
      exact .exited server code state

/-- A paused program that has a command to read acts on it. -/
theorem Orderly.heeds (orderly : d.Orderly told heard lines coming) {m : Machine}
    (server : d.server = .running m) (paused : m.phase = .paused) (ready : m.awaitsCommand = false) :
    ∃ (control : Control) (s : Statement) (next : Block), control.problem? = none ∧
      d.server.session.reader.pending.head? = some control.command.encode ∧
        m.frame.rest.uncons? = some (s, next) ∧ m.step = m.afterLine.heed s control := by
  have pending := orderly.server.contents.1
  have serves := orderly.server
  rw [server] at serves
  cases serves with
  | running serves =>
    obtain ⟨session, client, holds⟩ := serves.client
    cases lines with
    | nil => simp [Machine.awaitsCommand, paused, client, holds.pending, holds.open'] at ready
    | cons control rest =>
      obtain ⟨s, next, here, heeds⟩ := serves.heeds paused
      refine ⟨control, s, next, serves.accepted control List.mem_cons_self, ?_, here, heeds⟩
      rw [pending]
      rfl

/-- While nothing is on its way, one of the two goes on. -/
theorem Orderly.goesOn (orderly : d.Orderly told heard lines coming) (toServer : d.toServer = [])
    (toClient : d.toClient = []) (blocked : d.server.blocked = true) : d.client.blocked = false := by
  by_contra waits
  simp only [Client.blocked, Bool.not_eq_false, Bool.and_eq_true, bne_iff_ne] at waits
  obtain ⟨busy, empty⟩ := waits
  cases orderly.client with
  | apart _ _ idle => exact busy idle
  | @joined transport taken rest follows =>
    have receives := follows.receives
    have queue : transport.queue = [] := by simpa [receives.joined] using empty
    rw [toClient] at receives
    have arrived : rest = [] := receives.arrived
    have all : told = taken := by simpa [queue, arrived] using receives.parts
    have arriving := orderly.arriving
    rw [toServer] at arriving
    have lines' : d.begun ++ [] =
        coming.flatMap fun control => Debug.lineOf control.command.fields ++ [0xA] := arriving
    obtain rfl := nothing_comes orderly.unbroken lines'
    have seen := orderly.seen follows
    have fits := follows.fits
    have serves := orderly.server
    simp only [queue, arrived, List.filterMap_nil, List.length_nil, Nat.add_zero] at seen
    have waits (stands : d.server.halted = true) : ∃ control, d.client.activity = .waiting control := by
      rw [stands] at seen
      cases activity : d.client.activity with
      | idle => exact absurd activity busy
      | connecting control =>
        rw [activity] at fits
        have none := fits.1
        simp only [Bool.toNat_true] at seen
        omega
      | waiting control => exact ⟨control, rfl⟩
    cases server : d.server with
    | accepting w text => simp [server, Launch.blocked] at blocked
    | running m =>
      -- every command was heard, and so the halt after it has been seen
      rw [server] at serves blocked
      cases serves with
      | running serves =>
        obtain ⟨session, client, holds⟩ := serves.client
        have paused : m.phase = .paused ∧ lines = [] := by
          simp only [Launch.blocked] at blocked
          unfold Machine.awaitsCommand at blocked
          split at blocked
          next phase client' =>
            obtain rfl := Option.some.inj (client.symm.trans client')
            simp only [holds.pending, Bool.and_eq_true, List.isEmpty_iff, List.map_eq_nil_iff] at blocked
            exact ⟨phase, blocked.1⟩
          next => simp at blocked
        have stands : d.server.halted = true := by simp [server, Launch.halted, paused.1]
        obtain ⟨control, activity⟩ := waits stands
        rw [activity] at fits
        have same := fits.1
        simp only [paused.2, List.append_nil] at same
        rw [stands, Bool.toNat_true] at seen
        omega
    | finished w result =>
      rw [server] at serves
      obtain ⟨control, activity⟩ := waits (by simp [server, Launch.halted])
      rw [activity] at fits
      have known := receives.knows.code
      rw [fits.2, ← all, serves.exited] at known
      simp [Halt.code?] at known

theorem Orderly.inLockStep (orderly : d.Orderly told heard lines coming) : d.InLockStep where
  turns := orderly.turns
  sent := by
    refine ⟨lines ++ coming, orderly.few, ?_⟩
    rw [orderly.commands, orderly.sent, List.append_assoc, List.flatMap_append, List.flatMap_map]
  informed := orderly.informed
  heeds := orderly.heeds
  goesOn := orderly.goesOn

/-- To listen for a client changes nothing but what is on the console. -/
theorem listen_keeps {v : World} {address : BindAddress} {free : Nat}
    (listened : Launch.listen w address free = .ok v) : w.Keeps v := by
  unfold Launch.listen at listened
  split at listened
  next => simp at listened
  next =>
    dsimp only at listened
    generalize announced : World.writeError w _ = written at listened
    cases written with
    | error => simp [Except.mapError] at listened
    | ok w' =>
      obtain rfl := Except.ok.inj listened
      exact World.keeps_writeConsole announced

/-- A run that waits for its client to connect is as it has to be. -/
theorem prepared_of_start {out err : Host.Sink} {input : Host.Source} {files : Host.Files}
    {config : Config} {address : BindAddress} {free : Nat}
    (started : Launch.start path (.tcp address free) { console := { out, err, input }, files, config } =
      .accepting w text)
    (short : text.length < Text.sizeLimit)
    (offline : ∀ program, Block.parse text.toString.toList = .ok program →
      program.isOffline = true) : Launch.Prepared w text := by
  unfold Launch.start at started
  split at started
  next => simp at started
  next =>
    unfold Launch.refused at started
    split at started <;> simp at started
  next text' read =>
    dsimp only at started
    split at started
    next w' listened =>
      obtain ⟨rfl, rfl⟩ := Launch.accepting.inj started
      have keeps := listen_keeps listened
      refine ⟨keeps.solo rfl, keeps.forwarded, ?_, Launch.scalar_of_content read, short, offline⟩
      have console : Source.Target.std ≠ .http := by decide
      rwa [keeps.target]
    next =>
      unfold Launch.refused at started
      split at started <;> simp at started
    next => simp at started

/-- A debugger and the program that it debugs over the network stay in lock step, whatever it asks for
and however their steps and the bytes on their way follow each other. -/
theorem lock_step {out err : Host.Sink} {input : Host.Source} {files : Host.Files}
    {config : Config} {address : BindAddress} {free : Nat}
    (started : Launch.start path (.tcp address free) { console := { out, err, input }, files, config } =
      .accepting w text)
    (short : text.length < Text.sizeLimit)
    (offline : ∀ program, Block.parse text.toString.toList = .ok program →
      program.isOffline = true)
    (reachable : Reachable path (Launch.start path (.tcp address free)
      { console := { out, err, input }, files, config }) d) : d.InLockStep := by
  rw [started] at reachable
  obtain ⟨told, heard, lines, coming, orderly⟩ :=
    reachable.orderly (prepared_of_start started short offline)
  exact orderly.inLockStep

/-- On every interface a client is listened for. -/
theorem listen_everywhere (files : Host.Files) (free : Nat) :
    ∃ w, Launch.listen { files } ⟨"", 0⟩ free = .ok w := by
  have unopposed : World.bindStop? {} ⟨"", 0⟩ = none := by decide +kernel
  simp only [Launch.listen, unopposed]
  exact ⟨_, rfl⟩

/-- A program that begins with a marked statement pauses there. -/
theorem pauses_at_mark {path : String} {text : Text} {w : World} (accepted :
    Block.parse text.toString.toList = .ok (.act ⟨⟨1, 7⟩, true⟩ .output .nil)) :
    ∃ m, ((Launch.accepting w text).serve path true).serve path true = .running m ∧
      m.phase = .paused := by
  obtain ⟨console, session, files, traffic, config, _, _, _, opened⟩ := w
  simp only [Launch.serve, ↓reduceIte, Launch.accept, Launch.begin, Launch.introduce,
    Launch.overNetwork, Session.start, Session.send, Host.Sink.write, Host.spend, Except.map, accepted]
  generalize Tape.blank Tape.standardSize = tape
  exact ⟨_, rfl, rfl⟩

/-- A marked output, which the program pauses before, and a debugger that connects to step over it. -/
theorem lock_step_dot : ∃ (files : Host.Files) (w : World) (text : Text) (d : Dialogue) (m : Machine),
    Launch.start "dot" (.tcp ⟨"", 0⟩ 4000) { files } = .accepting w text ∧
      text.length < Text.sizeLimit ∧
      (∀ program, Block.parse text.toString.toList = .ok program → program.isOffline = true) ∧
      Reachable "dot" (Launch.start "dot" (.tcp ⟨"", 0⟩ 4000) { files }) d ∧
      d.server = .running m ∧ m.phase = .paused ∧ d.client.activity = .connecting .step ∧
      d.InLockStep := by
  -- the file holds "debug ."
  obtain ⟨text, spelled⟩ : ∃ text : Text, text = [0x64, 0x65, 0x62, 0x75, 0x67, 0x20, 0x2E] :=
    ⟨_, rfl⟩
  obtain ⟨files, read⟩ : ∃ files : Host.Files, Launch.content files "dot" = .ok text := by
    refine ⟨{ nodes := [(["dot"], .file #[0x64, 0x65, 0x62, 0x75, 0x67, 0x20, 0x2E])] }, ?_⟩
    rw [spelled]
    cbv
  have accepted : Block.parse text.toString.toList = .ok (.act ⟨⟨1, 7⟩, true⟩ .output .nil) := by
    rw [spelled]
    cbv
  have offline : ∀ program, Block.parse text.toString.toList = .ok program →
      program.isOffline = true := by
    intro program parsed
    obtain rfl := Except.ok.inj (accepted.symm.trans parsed)
    rfl
  have short : text.length < Text.sizeLimit := by
    rw [spelled]
    decide +kernel
  obtain ⟨w, listened⟩ := listen_everywhere files 4000
  have started : Launch.start "dot" (.tcp ⟨"", 0⟩ 4000) { files } = .accepting w text := by
    simp only [Launch.start, read, listened]
  obtain ⟨m, server, paused⟩ := @pauses_at_mark "dot" text w accepted
  have reachable : Reachable "dot" (Launch.start "dot" (.tcp ⟨"", 0⟩ 4000) { files }) _ :=
    Reachable.initial.run [.undertake .step, .serve, .serve]
  refine ⟨files, w, text, _, m, started, short, offline, reachable, ?_, paused, rfl,
    lock_step started short offline reachable⟩
  rw [started]
  exact server

end Dialogue
end TapeLang

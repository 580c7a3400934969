import Mathlib
import TapeLang.Proofs.Content
import TapeLang.Proofs.Conversation
import TapeLang.Proofs.Outputs
import TapeLang.Proofs.Routes

/-!
The protocol on the console's own streams. Whatever a run writes to the console goes out as messages
of its session: a byte of output as a message of its own (`Forwards.step`), the report of an error as
one more, and the exit code last. So the standard output of a whole run is a sequence of messages
(`stdio_stream`).
-/
namespace TapeLang

open Debug (ServerMessage Session)
open Source (Action Block Header)

/-! ## What the messages say -/

/-- The bytes of a message of a stream. -/
def Debug.ServerMessage.data? (stream : Text) : ServerMessage → Option (List UInt8)
  | .stream name value =>
    if name = stream then (Text.Encoding.latin1.encode value).toOption else none
  | _ => none

/-- All bytes that messages have for a stream, in order. -/
def Debug.dataOf (stream : Text) (messages : List ServerMessage) : List UInt8 :=
  (messages.filterMap (·.data? stream)).flatten

/-- Everything on the standard output, which may carry the protocol. -/
def World.standardOutput (w : World) : List UInt8 :=
  match w.console.forwarded, w.session with
  | true, some session => session.writer.bytes
  | _, _ => w.console.out.bytes

namespace Machine

/-- The value that the next step outputs, if the console is the active target. -/
def printed? (m : Machine) : Option UInt8 := if m.world.target = .std then m.output? else none

end Machine

namespace Launch

/-- What the next step of a run outputs to the console. -/
def printed? : Launch → Option UInt8
  | .running m => m.printed?
  | _ => none

/-- What so many steps of a run output while the console was the active target, in order. -/
def printed (path : String) : (count : Nat) → Launch → List UInt8
  | 0, _ => []
  | count + 1, launch => launch.printed?.toList ++ printed path count (step path launch)

/-- The error that the run of a text ends with: the text is no program, or a statement fails. -/
inductive Errs (path : String) (text : Text) (launch : Launch) : ProgramError → Prop where
  | grammar {fault : Source.SyntaxFault} {position : Source.Position}
      (refused : Block.parse text.toString.toList = .error (.malformed fault position)) :
      Errs path text launch (fault.located position path)
  | failure {m : Machine} {failure : Failure} {position : Source.Position} (count : Nat)
      (reached : (step path)^[count] launch = .running m)
      (failed : m.outcome? = some (.failed failure position)) :
      Errs path text launch (failure.located position path)

end Launch

/-! ## The console -/

namespace World

variable {w v : World} {session : Session} {bytes : List UInt8}

/-- What is written to a console that forwards it is one message. -/
theorem writeConsole_forwarded (forwarded : w.console.forwarded = true)
    (client : w.session = some session) (live : session.Live) (some : bytes ≠ []) (stream : Stream) :
    w.writeConsole stream bytes =
      .ok { w with session := Option.some (session.told (.ofBytes bytes stream.name)) } := by
  have more : bytes.isEmpty = false := by simpa using some
  simp only [writeConsole, forwarded, client, Session.writeThrough, more, Session.writeStream,
    live.unfinished, live.send, ↓reduceIte, Bool.false_eq_true]
  rfl

end World

/-! ## One step -/

namespace Machine

variable {m : Machine} {told : List ServerMessage} {short : Prop} {head : Header} {action : Action}
  {next : Block} {w : World}

/-- A message of a run that goes on: where it paused, or what it output. -/
def Ongoing (message : ServerMessage) : Prop :=
  (∃ snapshot, message = .state snapshot) ∨ ∃ bytes, message = .ofBytes bytes Debug.stdOut

/-- A run whose console goes over the protocol, with all messages so far. -/
structure Forwards (short : Prop) (m : Machine) (told : List ServerMessage) : Prop where
  forwarded : m.world.console.forwarded = true
  client : ∃ s : Session, m.world.session = some s ∧ s.Live ∧ s.mirrors = true ∧
    s.writer.bytes = told.flatMap ServerMessage.encode
  routes : m.world.Routes
  offline : m.Offline
  tape : m.tape.InBounds ∧ m.tape.size = Tape.standardSize
  /-- in a text that is not too long, everything is read back -/
  sound : short → m.Within Block.IsBrief ∧ ∀ message ∈ told, message.Sound

/-- A step that keeps the console and tells the client so much. -/
theorem Forwards.more (forwards : m.Forwards short told) {messages : List ServerMessage}
    (forwarded : m.step.world.console.forwarded = m.world.console.forwarded)
    (routes : m.step.world.Routes)
    (client : ∀ s, m.world.session = some s → s.Live →
      ∃ t, m.step.world.session = some t ∧ t.Live ∧ s.Says t messages)
    (sound : short → m.Within Block.IsBrief → ∀ message ∈ messages, message.Sound) :
    m.step.Forwards short (told ++ messages) := by
  obtain ⟨s, attached, live, mirrors, bytes⟩ := forwards.client
  obtain ⟨t, attached', live', adds⟩ := client s attached live
  refine ⟨forwarded.trans forwards.forwarded, ⟨t, attached', live', adds.mirrors.trans mirrors, ?_⟩,
    routes, forwards.offline.step, ?_, ?_⟩
  · rw [adds.bytes, bytes, List.flatMap_append]
  · exact ⟨step_tape.2 forwards.tape.1, step_tape.1.trans forwards.tape.2⟩
  · intro brief
    obtain ⟨within, before⟩ := forwards.sound brief
    refine ⟨within.step Source.hereditary_isBrief, ?_⟩
    intro message member
    rcases List.mem_append.mp member with earlier | latest
    · exact before message earlier
    · exact sound brief within message latest

/-- A step that leaves the session tells the client nothing. -/
theorem Forwards.quiet (forwards : m.Forwards short told)
    (forwarded : m.step.world.console.forwarded = m.world.console.forwarded)
    (routes : m.step.world.Routes) (session : m.step.world.session = m.world.session) :
    m.step.Forwards short told := by
  have more : m.step.Forwards short (told ++ []) := forwards.more forwarded routes
    (fun s attached live => ⟨s, session.trans attached, live, .refl s⟩) (by simp)
  rwa [List.append_nil] at more

/-- What an output on the console does. -/
theorem broadcast_console (routes : w.Routes) (console : w.target = .std)
    (forwarded : w.console.forwarded = true) {session : Session} (client : w.session = some session)
    (live : session.Live) (value : UInt8) : w.broadcast value =
      ({ w with session := some (session.told (.ofBytes [value] Debug.stdOut)) }, .ok ()) := by
  have written := World.writeConsole_forwarded forwarded client live (List.cons_ne_nil value []) .out
  simp only [World.broadcast, World.drain_unopened routes.unopened, routes.console console,
    World.writeEach, World.writeByte, written]
  rfl

theorem dataOf_ofBytes (bytes : List UInt8) (stream : Text) :
    Debug.dataOf stream [.ofBytes bytes stream] = bytes := by
  simp [Debug.dataOf, ServerMessage.data?, ServerMessage.ofBytes, Text.encode_latin1_ofLatin1,
    Except.toOption]

/-- An action tells the client what it outputs to the console, and nothing else. -/
theorem Forwards.perform (forwards : m.Forwards short told) (phase : m.phase = .ready)
    (rest : m.frame.rest = .act head action next) (cell : action = .output → m.tape.hasCell = true)
    (same : m.step = m.perform head action next) :
    ∃ messages, m.step.Forwards short (told ++ messages) ∧ (∀ message ∈ messages, Ongoing message) ∧
      Debug.dataOf Debug.stdOut messages = m.printed?.toList := by
  have quiet (other : m.printed? = none) (still : m.step.Forwards short told) :
      ∃ messages, m.step.Forwards short (told ++ messages) ∧
        (∀ message ∈ messages, Ongoing message) ∧
        Debug.dataOf Debug.stdOut messages = m.printed?.toList := by
    refine ⟨[], by rwa [List.append_nil], by simp, ?_⟩
    rw [other]
    rfl
  have silent (other : action ≠ .output) : m.printed? = none := by
    unfold printed? output?
    split
    · split
      next rest' =>
        rw [rest] at rest'
        cases rest'
        exact absurd rfl other
      next => rfl
    · rfl
  by_cases output : action = .output
  · subst output
    have world : m.step.world = (m.world.broadcast m.tape.current).1 := by
      rw [same]
      exact output_world forwards.offline.away head next
    by_cases console : m.world.target = .std
    · have printed : m.printed? = some m.tape.current := by
        simp [printed?, console, output?, phase, rest, cell rfl]
      refine ⟨[.ofBytes [m.tape.current] Debug.stdOut], forwards.more ?_ ?_ ?_ ?_, ?_, ?_⟩
      · rw [world]
        exact (World.keeps_broadcast m.world m.tape.current).forwarded
      · obtain ⟨s, client, live, -⟩ := forwards.client
        rw [world, broadcast_console forwards.routes console forwards.forwarded client live]
        exact forwards.routes.of_same rfl rfl rfl
      · intro s client live
        rw [world, broadcast_console forwards.routes console forwards.forwarded client live]
        exact ⟨_, rfl, live.told _, Session.says_told s _⟩
      · intro _ _ message member
        obtain rfl := List.mem_singleton.mp member
        exact ServerMessage.sound_ofBytes _ (.inl rfl)
      · intro message member
        obtain rfl := List.mem_singleton.mp member
        exact .inr ⟨_, rfl⟩
      · rw [dataOf_ofBytes, printed]
        rfl
    · have none : m.printed? = none := if_neg console
      have elsewhere : .console ∉ m.world.endpoints := forwards.routes.elsewhere console
      rw [World.broadcast, World.drain_unopened forwards.routes.unopened] at world
      obtain ⟨session, kept, listener, target, endpoints⟩ :=
        World.writeEach_routes (w := m.world) elsewhere m.tape.current
      refine quiet none (forwards.quiet ?_ ?_ ?_)
      · rw [world, kept]
      · rw [world]
        exact forwards.routes.of_same listener target endpoints
      · rw [world, session]
  rcases perform_world forwards.offline.away head action next with kept | ⟨rfl, -⟩ | ⟨rfl, read⟩ |
    ⟨name, rfl, switched⟩
  · have world : m.step.world = m.world := by rw [same, kept]
    refine quiet (silent output) (forwards.quiet ?_ ?_ ?_) <;> rw [world]
    exact forwards.routes
  · exact absurd rfl output
  · have world : m.step.world = m.world.read.1 := by rw [same, read]
    obtain ⟨session, forwarded, listener, target, endpoints⟩ :=
      World.read_routes forwards.routes.unopened
    refine quiet (silent (by simp)) (forwards.quiet ?_ ?_ ?_)
    · rw [world, forwarded]
    · rw [world]
      exact forwards.routes.of_same listener target endpoints
    · rw [world, session]
  · have world : m.step.world = (m.world.switch name).1 := by rw [same, switched]
    have other := bne_iff_ne.mp (forwards.offline.allowed rest)
    obtain ⟨_, console, session⟩ := World.switch_away forwards.offline.away name other
    refine quiet (silent (by simp)) (forwards.quiet ?_ ?_ ?_)
    · rw [world, console]
    · rw [world]
      exact forwards.routes.switch forwards.offline.away other
    · rw [world, session]

/-- A step tells the client where the program paused, or what it outputs to the console. -/
theorem Forwards.step (forwards : m.Forwards short told) :
    ∃ messages, m.step.Forwards short (told ++ messages) ∧ (∀ message ∈ messages, Ongoing message) ∧
      Debug.dataOf Debug.stdOut messages = m.printed?.toList := by
  rcases step_performs m with ⟨quiet, still⟩ | ⟨head, action, next, phase, rest, cell, same⟩
  · have none : m.printed? = none := by
      unfold printed?
      split
      · exact quiet
      · rfl
    obtain ⟨s, client, live, -⟩ := forwards.client
    have spares (session : Option Session) (same : m.step.world = { m.world with session }) :
        m.step.world.console.forwarded = m.world.console.forwarded ∧ m.step.world.Routes := by
      rw [same]
      exact ⟨rfl, forwards.routes.of_same rfl rfl rfl⟩
    rcases step_tells ⟨s, client, live⟩ still with ⟨s', t, client', same, live', adds⟩ |
      ⟨snapshot, shows, s', t, client', same, live', adds⟩
    · obtain ⟨forwarded, routes⟩ := spares _ same
      refine ⟨[], forwards.more forwarded routes (fun s'' attached _ => ?_) (by simp), by simp, ?_⟩
      · obtain rfl := Option.some.inj (client'.symm.trans attached)
        exact ⟨t, by rw [same], live', adds⟩
      · rw [none]
        rfl
    · obtain ⟨forwarded, routes⟩ := spares _ same
      refine ⟨[.state snapshot], forwards.more forwarded routes (fun s'' attached _ => ?_) ?_, ?_, ?_⟩
      · obtain rfl := Option.some.inj (client'.symm.trans attached)
        exact ⟨t, by rw [same], live', adds⟩
      · intro _ within message member
        obtain rfl := List.mem_singleton.mp member
        exact shows.sound within forwards.tape.1 forwards.tape.2
      · intro message member
        obtain rfl := List.mem_singleton.mp member
        exact .inl ⟨snapshot, rfl⟩
      · rw [none]
        rfl
  · exact forwards.perform phase rest cell same

/-! ## The end of a run -/

/-- Closing releases what was opened and leaves the session and the console alone. -/
theorem release_routes (routes : w.Routes) (result : Except Fault Int) :
    (w.release result).2 = result ∧ (w.release result).1.session = w.session ∧
      (w.release result).1.console = w.console := by
  simp [World.release, World.close, World.closeListener, routes.unopened]

/-- A report is never empty. -/
theorem report_ne_empty (e : ProgramError) : Text.Utf8.encodeString e.report ≠ [] := by
  have newline : '\n' ∈ e.report.toList := by
    have line : '\n' ∈ (toString "\n").toList := by decide
    simp [ProgramError.report, String.toList_append, line]
  have inside : 0xA ∈ Text.Utf8.encodeString e.report := by
    rw [Text.Utf8.encodeString, Text.Utf8.encode, List.mem_flatMap]
    exact ⟨0xA, List.mem_map.mpr ⟨'\n', newline, rfl⟩, by decide⟩
  exact List.ne_nil_of_mem inside

/-- Reporting an error is one message for a client that the console's output goes to. -/
theorem reportError_forwarded (forwarded : w.console.forwarded = true) {session : Session}
    (client : w.session = some session) (live : session.Live) (mirrors : session.mirrors = true)
    (e : ProgramError) : w.reportError e.report =
      ({ w with session := some (session.told (.ofBytes (Text.Utf8.encodeString e.report)
        Debug.stdErr)) }, .ok ()) := by
  have written := World.writeConsole_forwarded forwarded client live (report_ne_empty e) .err
  have again : (session.told (.ofBytes (Text.Utf8.encodeString e.report)
      World.Stream.err.name)).reportError e.report = .ok (session.told
        (.ofBytes (Text.Utf8.encodeString e.report) World.Stream.err.name)) := if_pos mirrors
  simp only [World.reportError, World.writeError, written, Except.toOption, Option.getD_some, again]
  split <;> rfl

/-- A failure is reported in one message, the run's exit code is 0 or 1, and the session stays open. -/
theorem Forwards.conclude (forwards : m.Forwards short told) (path : String) {outcome : Outcome}
    {v : World} {code : Int} (concluded : m.conclude path outcome = (v, .ok code)) :
    ∃ reports, (∃ s : Session, v.session = some s ∧ s.Live ∧
        s.writer.bytes = (told ++ reports).flatMap ServerMessage.encode) ∧
      v.console.forwarded = true ∧
      ((outcome = .completed ∨ outcome = .steppedOut) ∧ code = 0 ∧ reports = [] ∨
        ∃ failure position, outcome = .failed failure position ∧ code = 1 ∧
          reports = [.ofBytes (Text.Utf8.encodeString (failure.located position path).report)
            Debug.stdErr]) := by
  obtain ⟨s, client, live, mirrors, bytes⟩ := forwards.client
  have released (w : World) (routes : w.Routes) (result : Except Fault Int)
      (same : w.release result = (v, .ok code)) :
      result = .ok code ∧ v.session = w.session ∧ v.console = w.console := by
    obtain ⟨result', session, console⟩ := release_routes routes result
    rw [same] at result' session console
    exact ⟨result'.symm, session, console⟩
  have well (ends : outcome = .completed ∨ outcome = .steppedOut)
      (same : m.world.release (.ok 0) = (v, .ok code)) : ∃ reports,
      (∃ s : Session, v.session = some s ∧ s.Live ∧
        s.writer.bytes = (told ++ reports).flatMap ServerMessage.encode) ∧
      v.console.forwarded = true ∧
      ((outcome = .completed ∨ outcome = .steppedOut) ∧ code = 0 ∧ reports = [] ∨
        ∃ failure position, outcome = .failed failure position ∧ code = 1 ∧
          reports = [.ofBytes (Text.Utf8.encodeString (failure.located position path).report)
            Debug.stdErr]) := by
    obtain ⟨zero, session, console⟩ := released _ forwards.routes _ same
    refine ⟨[], ⟨s, session.trans client, live, by rw [List.append_nil, bytes]⟩, ?_, ?_⟩
    · rw [console, forwards.forwarded]
    · exact .inl ⟨ends, (Except.ok.inj zero).symm, rfl⟩
  cases outcome with
  | completed => exact well (.inl rfl) concluded
  | steppedOut => exact well (.inr rfl) concluded
  | broken fault =>
    obtain ⟨wrong, -, -⟩ := released m.world forwards.routes (.error fault) concluded
    simp at wrong
  | failed failure position =>
    have reported := reportError_forwarded forwards.forwarded client live mirrors
      (failure.located position path)
    simp only [Machine.conclude, settleOutcome, reported] at concluded
    generalize told' : s.told (.ofBytes (Text.Utf8.encodeString (failure.located position path).report)
      Debug.stdErr) = t at concluded
    obtain ⟨one, session, console⟩ := released { m.world with session := some t }
      (forwards.routes.of_same rfl rfl rfl) _ concluded
    refine ⟨[.ofBytes (Text.Utf8.encodeString (failure.located position path).report) Debug.stdErr],
      ⟨t, session, told' ▸ live.told _, ?_⟩, ?_, ?_⟩
    · rw [← told', (Session.says_told s _).bytes, bytes, List.flatMap_append]
    · rw [console, forwards.forwarded]
    · exact .inr ⟨failure, position, rfl, (Except.ok.inj one).symm, rfl⟩

end Machine

namespace Launch

open Machine

variable {m : Machine} {told : List ServerMessage} {short : Prop} {path : String} {v : World}
  {code : Int} {text : Text}

theorem iterate_finished (path : String) (v : World) (result : Except Fault Int) (count : Nat) :
    (step path)^[count] (.finished v result) = .finished v result := by
  induction count with
  | zero => rfl
  | succ count ih => exact ih

theorem printed_finished (path : String) (v : World) (result : Except Fault Int) (count : Nat) :
    printed path count (.finished v result) = [] := by
  induction count with
  | zero => rfl
  | succ count ih => exact ih

/-- A run that returns an exit code has come to an end of its program, after messages that say where it
paused and what it output. -/
theorem forwards_run (forwards : m.Forwards short told) {count : Nat}
    (returned : (step path)^[count] (.running m) = .finished v (.ok code)) :
    ∃ (messages : List ServerMessage) (before : Nat) (n : Machine) (outcome : Outcome),
      (step path)^[before] (.running m) = .running n ∧ n.Forwards short (told ++ messages) ∧
      (∀ message ∈ messages, Ongoing message) ∧
      Debug.dataOf Debug.stdOut messages = printed path count (.running m) ∧
      n.outcome? = some outcome ∧
      ended (n.conclude path outcome).1 (n.conclude path outcome).2 = .finished v (.ok code) := by
  induction count generalizing m told with
  | zero => simp at returned
  | succ count ih =>
    rw [Function.iterate_succ_apply] at returned
    cases outcome : m.outcome? with
    | some reason =>
      have stepped : step path (.running m) =
          ended (m.conclude path reason).1 (m.conclude path reason).2 := by
        simp only [step, outcome]
      have quiet : m.printed? = none := by
        unfold Machine.outcome? at outcome
        split at outcome
        next phase => simp [Machine.printed?, output?, phase]
        next => simp at outcome
      rw [stepped] at returned
      have last := returned
      rw [ended, iterate_finished] at last
      refine ⟨[], 0, m, reason, rfl, by rwa [List.append_nil], by simp, ?_, outcome, last⟩
      rw [printed, stepped, ended, printed_finished]
      simp [Launch.printed?, quiet, Debug.dataOf]
    | none =>
      have stepped : step path (.running m) = .running m.step := by simp only [step, outcome]
      rw [stepped] at returned
      obtain ⟨first, forwards', ongoing, data⟩ := forwards.step
      obtain ⟨messages, before, n, reason, reached, forwards'', ongoing', data', stopped, last⟩ :=
        ih forwards' returned
      refine ⟨first ++ messages, before + 1, n, reason, ?_, ?_, ?_, ?_, stopped, last⟩
      · rw [Function.iterate_succ_apply, stepped, reached]
      · rwa [← List.append_assoc]
      · intro message member
        rcases List.mem_append.mp member with earlier | later
        · exact ongoing message earlier
        · exact ongoing' message later
      · rw [printed, stepped, ← data']
        simp only [Debug.dataOf, List.filterMap_append, List.flatten_append]
        simp only [Debug.dataOf] at data
        rw [data]
        rfl

/-! ## Whole runs -/

/-- The last message of a session is the exit code. -/
theorem bytes_close {s : Session} (live : s.Live) (code : Int) :
    (s.close code).writer.bytes = s.writer.bytes ++ (ServerMessage.exit code).encode := by
  have closed : (s.close code).writer = (s.told (.exit code)).writer := by
    simp only [Session.close, live.unfinished, live.send, ↓reduceIte]
  rw [closed, (Session.says_told s _).bytes, List.flatMap_singleton]

/-- At the end of a run the exit code is added to what the client was told. -/
theorem standardOutput_ended {w : World} {s : Session} (client : w.session = some s) (live : s.Live)
    (forwarded : w.console.forwarded = true) {result : Except Fault Int}
    (last : ended w result = .finished v (.ok code)) :
    result = .ok code ∧ v.standardOutput = s.writer.bytes ++ (ServerMessage.exit code).encode := by
  rw [ended] at last
  obtain ⟨rfl, rfl⟩ := Launch.finished.inj last
  refine ⟨rfl, ?_⟩
  simp only [World.standardOutput, forwarded, client, Option.map_some]
  exact bytes_close live code

/-- All that the client of a run is told, with the exit code last. -/
def transcript (path : String) (text : Text) (middle : List ServerMessage) (code : Int) :
    List ServerMessage :=
  introduction path text :: middle ++ [.exit code]

/-- A console whose streams do not fail, with the commands of a client. -/
def piped (commands : List UInt8) (files : Host.Files) (config : Config) : World :=
  { console := { input := { pending := commands } }, files, config }

/-- The session over the console's streams, once the client is told what is run. -/
def introduced (commands : List UInt8) (message : ServerMessage) : Session :=
  { reader := .ofBytes commands none
    writer := ⟨[message.encode], none⟩
    state := .running
    mirrors := true }

variable {files : Host.Files} {config : Config} {commands : List UInt8} {w : World}

theorem live_introduced (commands : List UInt8) (message : ServerMessage) :
    (introduced commands message).Live :=
  ⟨by simp [introduced], rfl, rfl⟩

/-- A run whose client has been told what is run, before its text is parsed. -/
structure Introduced (path : String) (text : Text) (commands : List UInt8) (w : World) : Prop where
  session : w.session = some (introduced commands (introduction path text))
  forwarded : w.console.forwarded = true
  routes : w.Routes
  target : w.target = .std

/-- How a run goes on after the introduction. -/
def parsed (path : String) (text : Text) (w : World) : Launch :=
  match Block.parse text.toString.toList with
  | .ok program => .running (.start program (.blank Tape.standardSize) w)
  | .error (.numeral fault) => ended w (.error (.numeral fault))
  | .error (.malformed fault position) =>
    ended (reportSyntax w (fault.located position path).report).1
      (reportSyntax w (fault.located position path).report).2

/-- A run over the console begins with the introduction. -/
theorem start_stdio (read : content files path = .ok text) : ∃ w, Introduced path text commands w ∧
    start path .stdio (piped commands files config) = parsed path text w := by
  let told := { overConsole (piped commands files config) with
    session := some (introduced commands (introduction path text)) }
  have introduces : introduce (overConsole (piped commands files config)) path text = .ok told := rfl
  refine ⟨told, ⟨rfl, rfl, ⟨rfl, fun _ => rfl, fun other => absurd rfl other⟩, rfl⟩, ?_⟩
  have found : content (piped commands files config).files path = .ok text := read
  have begun : begin path text (overConsole (piped commands files config)) = parsed path text told := by
    cases accepted : Block.parse text.toString.toList with
    | ok program => simp only [begin, introduces, parsed, accepted]
    | error refusal =>
      cases refusal with
      | numeral fault => simp only [begin, introduces, parsed, accepted]
      | malformed fault position =>
        cases reported : reportSyntax told (fault.located position path).report with
        | mk w result => simp only [begin, introduces, parsed, accepted, reported]
  simp only [start, found, begun]

/-- A program that is run after the introduction. -/
theorem Introduced.forwards (begun : Introduced path text commands w) (scalar : text.IsScalar)
    {program : Block} (accepted : Block.parse text.toString.toList = .ok program)
    (offline : program.isOffline = true) :
    (Machine.start program (.blank Tape.standardSize) w).Forwards (text.length < Text.sizeLimit)
      [introduction path text] where
  forwarded := begun.forwarded
  client := by
    refine ⟨_, begun.session, live_introduced _ _, rfl, ?_⟩
    simp [introduced, Host.Sink.bytes]
  routes := begun.routes
  offline := offline_start offline _ (by simp [begun.target])
  tape := ⟨Tape.inBounds_blank (by decide), Tape.size_blank _⟩
  sound short := by
    have brief : program.IsBrief := Source.brief_of_parse accepted (by rwa [length_toString])
    refine ⟨within_start brief _ _, ?_⟩
    intro message member
    obtain rfl := List.mem_singleton.mp member
    exact sound_introduction scalar path

/-- A text that is no program is reported in one message, and that is the end of the run. -/
theorem Introduced.malformed (begun : Introduced path text commands w) {fault : Source.SyntaxFault}
    {position : Source.Position}
    (refused : Block.parse text.toString.toList = .error (.malformed fault position)) :
    ∃ (last : World) (s : Session), parsed path text w = ended last (.ok 1) ∧
      last.session = some s ∧ s.Live ∧ last.console.forwarded = true ∧
      s.writer.bytes = [introduction path text, .ofBytes
        (Text.Utf8.encodeString (fault.located position path).report) Debug.stdErr].flatMap
          ServerMessage.encode := by
  have live := live_introduced commands (introduction path text)
  have written := World.writeConsole_forwarded begun.forwarded begun.session live
    (report_ne_empty (fault.located position path)) .err
  generalize told : (introduced commands (introduction path text)).told (.ofBytes
    (Text.Utf8.encodeString (fault.located position path).report) World.Stream.err.name) = s at written
  have mirrors : s.mirrors = true := by
    rw [← told]
    rfl
  refine ⟨{ w with session := some s }, s, ?_, rfl, told ▸ live.told _, begun.forwarded, ?_⟩
  · simp only [parsed, refused, reportSyntax, World.writeError, written, Session.reportError, mirrors,
      ↓reduceIte]
  · rw [← told, (Session.says_told _ _).bytes]
    simp [introduced, Host.Sink.bytes, World.Stream.name]

/-- The transcript of a run is read back message by message. -/
theorem lines_transcript {middle : List ServerMessage} (scalar : text.IsScalar)
    (exits : code = 0 ∨ code = 1) (sound : ∀ message ∈ middle, message.Sound) :
    (Host.lines ((transcript path text middle code).flatMap ServerMessage.encode)).map
      ServerMessage.decode = (transcript path text middle code).map Except.ok := by
  have all : ∀ message ∈ transcript path text middle code, message.Sound := by
    intro message member
    simp only [transcript, List.cons_append, List.mem_cons, List.mem_append, List.not_mem_nil,
      or_false] at member
    rcases member with rfl | inside | rfl
    · exact sound_introduction scalar path
    · exact sound message inside
    · have small : code.natAbs < 10 ^ 1 := by rcases exits with rfl | rfl <;> decide
      exact Json.isShort_of_natAbs_lt _ (by decide) small
  rw [Debug.lines_encode all, List.map_map]
  exact List.map_congr_left fun message member => (ServerMessage.decode_encode (all message member)).2

/-- The report of a run that failed, and none of one that did not. -/
def Reports (path : String) (text : Text) (launch : Launch) (code : Int)
    (reports : List ServerMessage) : Prop :=
  code = 0 ∧ reports = [] ∨ code = 1 ∧ ∃ error, Errs path text launch error ∧
    reports = [.ofBytes (Text.Utf8.encodeString error.report) Debug.stdErr]

/-- What the client of a run that returns a code is told between the introduction and the exit code:
where the program paused, all that it output to the console, and one report if it failed. -/
structure Settles (path : String) (text : Text) (launch : Launch) (output : List UInt8) (code : Int)
    (middle : List ServerMessage) : Prop where
  kinds : ∀ message ∈ middle, (∃ snapshot, message = .state snapshot) ∨
    ∃ stream bytes, (stream = Debug.stdOut ∨ stream = Debug.stdErr) ∧ message = .ofBytes bytes stream
  output : Debug.dataOf Debug.stdOut middle = output
  reports : Reports path text launch code (middle.filter (·.type = Debug.stdErr))

variable {launch : Launch} {messages reports : List ServerMessage}

/-- Messages of a run that goes on, and after them its report. -/
theorem settles_append (ongoing : ∀ message ∈ messages, Ongoing message)
    (last : Reports path text launch code reports) :
    Settles path text launch (Debug.dataOf Debug.stdOut messages) code (messages ++ reports) := by
  have apart : Debug.stdErr ≠ Debug.stdOut ∧ Text.ofString "debug-state" ≠ Debug.stdErr := by decide
  have other : messages.filter (·.type = Debug.stdErr) = [] := by
    refine List.filter_eq_nil_iff.mpr fun message member => ?_
    rcases ongoing message member with ⟨snapshot, rfl⟩ | ⟨bytes, rfl⟩
    · simp [ServerMessage.type, apart.2]
    · simp [ServerMessage.type, ServerMessage.ofBytes, apart.1.symm]
  constructor
  · intro message member
    rcases List.mem_append.mp member with inside | report
    · rcases ongoing message inside with state | ⟨bytes, rfl⟩
      · exact .inl state
      · exact .inr ⟨_, bytes, .inl rfl, rfl⟩
    · rcases last with ⟨-, rfl⟩ | ⟨-, error, -, rfl⟩
      · simp at report
      · obtain rfl := List.mem_singleton.mp report
        exact .inr ⟨_, _, .inr rfl, rfl⟩
  · rcases last with ⟨-, rfl⟩ | ⟨-, error, -, rfl⟩
    · rw [List.append_nil]
    · simp [Debug.dataOf, ServerMessage.data?, ServerMessage.ofBytes, apart.1]
  · rw [List.filter_append, other, List.nil_append]
    rcases last with ⟨zero, rfl⟩ | ⟨one, error, ends, rfl⟩
    · exact .inl ⟨zero, rfl⟩
    · exact .inr ⟨one, error, ends, List.filter_cons_of_pos (by simp [ServerMessage.type,
        ServerMessage.ofBytes])⟩

/-- The standard output of such a run is read back message by message. -/
theorem lines_settled (scalar : text.IsScalar) (last : Reports path text launch code reports)
    (sound : ∀ message ∈ messages, message.Sound) :
    (Host.lines ((transcript path text (messages ++ reports) code).flatMap ServerMessage.encode)).map
      ServerMessage.decode = (transcript path text (messages ++ reports) code).map Except.ok := by
  refine lines_transcript scalar ?_ fun message member => ?_
  · rcases last with ⟨zero, -⟩ | ⟨one, -⟩
    · exact .inl zero
    · exact .inr one
  · rcases List.mem_append.mp member with inside | report
    · exact sound message inside
    · rcases last with ⟨-, rfl⟩ | ⟨-, error, -, rfl⟩
      · simp at report
      · obtain rfl := List.mem_singleton.mp report
        exact ServerMessage.sound_ofBytes _ (.inr rfl)

/-- The standard output of a run over the console is a transcript, one message on each line. -/
theorem stdio_stream {count : Nat} (read : content files path = .ok text)
    (offline : ∀ program, Block.parse text.toString.toList = .ok program → program.isOffline = true)
    (returned : (step path)^[count] (start path .stdio (piped commands files config)) =
      .finished v (.ok code)) :
    ∃ middle : List ServerMessage,
      v.standardOutput = (transcript path text middle code).flatMap ServerMessage.encode ∧
      (text.length < Text.sizeLimit → (Host.lines v.standardOutput).map ServerMessage.decode =
        (transcript path text middle code).map Except.ok) ∧
      Settles path text (start path .stdio (piped commands files config))
        (printed path count (start path .stdio (piped commands files config))) code middle := by
  have scalar := scalar_of_content read
  obtain ⟨w, begun, same⟩ := @start_stdio _ _ _ config commands read
  rw [same] at returned ⊢
  cases accepted : Block.parse text.toString.toList with
  | ok program =>
    have runs : parsed path text w = .running (.start program (.blank Tape.standardSize) w) := by
      simp only [parsed, accepted]
    rw [runs] at returned ⊢
    obtain ⟨messages, before, n, outcome, reached, forwards, ongoing, output, stopped, last⟩ :=
      forwards_run (begun.forwards scalar accepted (offline program accepted)) returned
    generalize concluded : n.conclude path outcome = conclusion at last
    obtain ⟨v', result⟩ := conclusion
    obtain rfl : result = .ok code := (Launch.finished.inj last).2
    obtain ⟨reports, ⟨s, client, live, bytes⟩, forwarded, ends⟩ := forwards.conclude path concluded
    obtain ⟨-, whole⟩ := standardOutput_ended client live forwarded last
    have stream : v.standardOutput =
        (transcript path text (messages ++ reports) code).flatMap ServerMessage.encode := by
      rw [whole, bytes]
      simp [transcript]
    have reported : Reports path text
        (.running (.start program (.blank Tape.standardSize) w)) code reports := by
      rcases ends with ⟨-, zero, none⟩ | ⟨failure, position, rfl, one, some⟩
      · exact .inl ⟨zero, none⟩
      · exact .inr ⟨one, _, .failure before reached stopped, some⟩
    refine ⟨messages ++ reports, stream, fun short => ?_, output ▸ settles_append ongoing reported⟩
    rw [stream]
    exact lines_settled scalar reported fun message member =>
      (forwards.sound short).2 message (List.mem_append_right _ member)
  | error refusal =>
    cases refusal with
    | numeral fault =>
      have refused : parsed path text w = ended w (.error (.numeral fault)) := by
        simp only [parsed, accepted]
      rw [refused, ended, iterate_finished] at returned
      simp at returned
    | malformed fault position =>
      obtain ⟨w', s, refused, client, live, forwarded, bytes⟩ := begun.malformed accepted
      rw [refused] at returned ⊢
      have last : ended w' (.ok 1) = .finished v (.ok code) := by
        rwa [ended, iterate_finished] at returned
      obtain ⟨one, whole⟩ := standardOutput_ended client live forwarded last
      obtain rfl := Except.ok.inj one
      generalize report : ServerMessage.ofBytes (Text.Utf8.encodeString
        (fault.located position path).report) Debug.stdErr = message at bytes
      have reported : Reports path text (ended w' (.ok 1)) 1 [message] :=
        .inr ⟨rfl, _, .grammar accepted, by rw [report]⟩
      have ongoing : ∀ message ∈ ([] : List ServerMessage), Ongoing message := by simp
      have stream : v.standardOutput =
          (transcript path text ([] ++ [message]) 1).flatMap ServerMessage.encode := by
        rw [whole, bytes]
        simp [transcript]
      refine ⟨[] ++ [message], stream, fun _ => ?_, ?_⟩
      · rw [stream]
        exact lines_settled scalar reported (by simp)
      · rw [ended, printed_finished]
        exact settles_append ongoing reported

/-- A program of a single output comes to its end. -/
theorem finished_dot (begun : Introduced path text commands w) : ∃ v,
    (step path)^[4] (.running (.start (.act ⟨⟨1, 1⟩, false⟩ .output .nil)
      (.blank Tape.standardSize) w)) = .finished v (.ok 0) := by
  obtain ⟨session, forwarded, routes, target⟩ := begun
  have endpoints := routes.console target
  have unopened := routes.unopened
  have cell : (Tape.blank Tape.standardSize).hasCell = true := by
    simp [Tape.hasCell, Tape.blank, Tape.standardSize]
  generalize Tape.blank Tape.standardSize = tape at cell ⊢
  obtain ⟨⟨out, err, input, _⟩, _, files, traffic, config, _, _, _, opened⟩ := w
  subst session forwarded target endpoints unopened
  have looked (m : Machine) (same : m = .start (.act ⟨⟨1, 1⟩, false⟩ .output .nil) tape
      ⟨⟨out, err, input, true⟩, some (introduced commands (introduction path text)), files, traffic,
        config, .std, [.console], none, opened⟩) :
      step path (.running m) = .running { m with phase := .ready } := by
    rw [same]
    rfl
  have acted (m : Machine) (ready : m.phase = .ready)
      (rest : m.frame.rest = .act ⟨⟨1, 1⟩, false⟩ .output .nil) (here : m.tape = tape) :
      step path (.running m) = .running (m.output ⟨⟨1, 1⟩, false⟩ .nil) := by
    simp [step, outcome?, ready, Machine.step, act, rest, here, cell, perform]
  simp only [Function.iterate_succ_apply, Function.iterate_zero, id]
  rw [looked _ rfl, acted _ rfl rfl rfl]
  exact ⟨_, rfl⟩

/-- A file with one output in it, without a client. -/
theorem stdio_stream_dot : ∃ (files : Host.Files) (v : World), content files "dot" = .ok [0x2E] ∧
    (∀ program, Block.parse (Text.toString [0x2E]).toList = .ok program → program.isOffline = true) ∧
    (step "dot")^[4] (start "dot" .stdio (piped [] files {})) = .finished v (.ok 0) ∧
    ∃ middle : List ServerMessage,
      v.standardOutput = (transcript "dot" [0x2E] middle 0).flatMap ServerMessage.encode ∧
      ([0x2E].length < Text.sizeLimit → (Host.lines v.standardOutput).map ServerMessage.decode =
        (transcript "dot" [0x2E] middle 0).map Except.ok) ∧
      Settles "dot" [0x2E] (start "dot" .stdio (piped [] files {}))
        (printed "dot" 4 (start "dot" .stdio (piped [] files {}))) 0 middle := by
  let files : Host.Files := { nodes := [(["dot"], .file #[0x2E])] }
  have read : content files "dot" = .ok [0x2E] := by cbv
  have accepted : Block.parse (Text.toString [0x2E]).toList =
      .ok (.act ⟨⟨1, 1⟩, false⟩ .output .nil) := by
    rfl
  have offline : ∀ program, Block.parse (Text.toString [0x2E]).toList = .ok program →
      program.isOffline = true := by
    intro program parsed
    obtain rfl := Except.ok.inj (accepted.symm.trans parsed)
    rfl
  obtain ⟨w, begun, same⟩ := @start_stdio "dot" [0x2E] files {} [] read
  obtain ⟨v, last⟩ := finished_dot begun
  have returned : (step "dot")^[4] (start "dot" .stdio (piped [] files {})) =
      .finished v (.ok 0) := by
    rw [same, ← last]
    simp only [parsed, accepted]
  exact ⟨files, v, read, offline, returned, stdio_stream read offline returned⟩

end Launch
end TapeLang

import TapeLang.Client.Display
import TapeLang.Launch
import TapeLang.Proofs.Continuing
import TapeLang.Proofs.Dialogue.Following
import TapeLang.Proofs.Reading

/-!
Error reports on their way to a debugger. The program writes a report to its error stream in UTF-8 and
sends the same bytes, each as a code point of its own; the debugger shows these code points. So what it
shows is the report as Latin-1 reads its bytes (`report_shown`): the report itself if it is ASCII, and
another text if it is not (`Text.ofLatin1_encodeString_iff`).
-/
namespace TapeLang

open Debug (ServerMessage Session)

/-! ## ASCII -/

/-- Whether a string is ASCII. -/
def IsAscii (s : String) : Prop := ∀ c ∈ s.toList, c.toNat < 0x80

instance (s : String) : Decidable (IsAscii s) := List.decidableBAll _ s.toList

theorem isAscii_append {s t : String} : IsAscii (s ++ t) ↔ IsAscii s ∧ IsAscii t := by
  simp only [IsAscii, String.toList_append, List.forall_mem_append]

theorem isAscii_toString (n : Nat) : IsAscii (toString n) := by
  intro c member
  have digit : c.isDigit = true :=
    Nat.isDigit_of_mem_toDigits (b := 10) (n := n) (by decide) (by decide)
      (by simpa [toString, Nat.repr] using member)
  have small : c.val ≤ 57 := by
    simp only [Char.isDigit, Bool.and_eq_true, decide_eq_true_eq] at digit
    exact digit.2
  exact Nat.lt_of_le_of_lt (UInt32.le_iff_toNat_le.mp small) (by decide)

theorem ErrorKind.isAscii_headline (kind : ErrorKind) : IsAscii kind.headline := by
  cases kind <;> decide

theorem ProgramError.isAscii_lastName {path : String} (ascii : IsAscii path) :
    IsAscii (lastName path) := by
  intro c member
  simp only [lastName, String.toList_ofList, List.mem_reverse] at member
  exact ascii c (List.mem_reverse.mp ((List.takeWhile_subset _) member))

/-- A report is ASCII exactly if its reason and its path are. -/
theorem ProgramError.isAscii_report (e : ProgramError) :
    IsAscii e.report ↔ IsAscii e.reason ∧ IsAscii e.path := by
  have name : IsAscii e.path → IsAscii e.fileName := isAscii_lastName
  have text (s : String) : toString s = s := rfl
  -- what a report is made of besides the headline, the reason, the numbers and the path
  have pieces : ∀ s ∈ ["\n", "\t'", "' at line ", " column ", " in ", "\t", " ", ":"], IsAscii s := by
    decide
  simp only [List.forall_mem_cons] at pieces
  simp only [report, text, isAscii_append, isAscii_toString, e.kind.isAscii_headline, pieces, and_true,
    true_and]
  constructor
  · exact fun ⟨⟨reason, _⟩, path⟩ => ⟨reason, path⟩
  · exact fun ⟨reason, path⟩ => ⟨⟨reason, name path⟩, path⟩

/-! ## Bytes as code points -/

namespace Text

theorem Utf8.length_encodePoint (n : Nat) :
    1 ≤ (encodePoint n).length ∧ ((encodePoint n).length = 1 → n < 0x80) := by
  unfold encodePoint
  split
  next small => simp [small]
  next => split <;> [skip; split] <;> simp

/-- No text has more code points than bytes, and as many only in ASCII. -/
theorem Utf8.length_encode (t : Text) :
    t.length ≤ (encode t).length ∧ ((encode t).length = t.length → ∀ n ∈ t, n < 0x80) := by
  induction t with
  | nil => simp [encode]
  | cons n rest ih =>
    obtain ⟨shorter, ascii⟩ := ih
    obtain ⟨some, single⟩ := length_encodePoint n
    have length : (encode (n :: rest)).length = (encodePoint n).length + (encode rest).length := by
      rw [encode, List.flatMap_cons, List.length_append, encode]
    rw [length, List.length_cons]
    refine ⟨by omega, fun same m member => ?_⟩
    rcases List.mem_cons.mp member with rfl | later
    · exact single (by omega)
    · exact ascii (by omega) m later

/-- The bytes of a text are its code points exactly in ASCII. -/
theorem ofLatin1_encode_iff (t : Text) : ofLatin1 (Utf8.encode t) = t ↔ ∀ n ∈ t, n < 0x80 := by
  constructor
  · -- beyond ASCII there are more bytes than code points
    intro same
    have length := congrArg List.length same
    rw [ofLatin1, List.length_map] at length
    exact (Utf8.length_encode t).2 length
  · intro ascii
    rw [Utf8.encode_ascii ascii, ofLatin1, List.map_map]
    refine (List.map_congr_left fun n member => ?_).trans (List.map_id t)
    have small := ascii n member
    exact UInt8.toNat_ofNat_of_lt' (Nat.lt_of_lt_of_le small (by decide))

theorem ofLatin1_encodeString_iff (s : String) :
    ofLatin1 (Utf8.encodeString s) = ofString s ↔ IsAscii s := by
  rw [Utf8.encodeString, ofLatin1_encode_iff, ofString, List.forall_mem_map, IsAscii]

end Text

/-! ## The program -/

/-- The message that a report is sent in. -/
def reportMessage (text : String) : ServerMessage := .ofBytes (Text.Utf8.encodeString text) Debug.stdErr

/-- What the program writes to the console goes to streams of its own, and its client, if there is one,
does not see them. -/
structure World.Apart (w : World) : Prop where
  own : w.console.forwarded = false
  direct : ∀ session, w.session = some session → session.mirrors = false

/-- What a report makes of a world and its client: the client is sent a message, and the error stream has
the text, if it takes it. -/
structure World.Tells (w : World) (session : Session) (text : String) (v : World) : Prop where
  client : ∃ later : Session, v.session = some later ∧
    later.writer.bytes = session.writer.bytes ++ (reportMessage text).encode ∧
    later.state = session.state
  stream : Host.spend w.console.err.budget ≠ none →
    v.console.err.bytes = w.console.err.bytes ++ Text.Utf8.encodeString text

namespace Debug.Session

variable {session : Session}

/-- A client that does not see the console is sent a report, while it is attached and takes messages. -/
theorem reportError_direct (direct : session.mirrors = false) (attached : session.attached = true)
    (takes : Host.spend session.writer.budget ≠ none) (text : String) :
    ∃ later, session.reportError text = .ok later ∧
      later.writer.bytes = session.writer.bytes ++ (reportMessage text).encode ∧
      later.state = session.state := by
  obtain ⟨budget, spent⟩ := Option.ne_none_iff_exists'.mp takes
  have wrote : session.writer.write (reportMessage text).encode =
      .ok ⟨(reportMessage text).encode :: session.writer.chunks, budget⟩ := by
    rw [Host.Sink.write, spent]
  have told := World.reportError_attached attached text
  rw [direct, if_neg (by simp)] at told
  exact ⟨_, told.trans (World.send_served spent _), Host.Sink.bytes_write wrote, rfl⟩

/-- A session that is closed has told of the exit code, if it could. -/
theorem bytes_close_cases (live : session.state ≠ .finished) (code : Int) :
    (session.close code).writer.bytes = session.writer.bytes ∨
      (session.close code).writer.bytes = session.writer.bytes ++ (ServerMessage.exit code).encode := by
  simp only [close, live, ↓reduceIte]
  cases sent : session.send (.exit code) with
  | error => exact .inl rfl
  | ok later =>
    unfold send at sent
    split at sent
    next writer wrote =>
      obtain rfl := Except.ok.inj sent
      exact .inr (Host.Sink.bytes_write wrote)
    next => simp at sent

end Debug.Session

namespace World

variable {w v u : World} {session : Session} {text : String}

theorem Apart.continues (apart : w.Apart) (continues : w.Continues v) : v.Apart where
  own := continues.forwarded.trans apart.own
  direct t client := by
    obtain ⟨s, before, becomes⟩ := continues.session t client
    exact becomes.mirrors.trans (apart.direct s before)

/-- The error stream of such a console has its own bytes, and no client is told of them. -/
theorem Apart.writeError (apart : w.Apart) (written : w.writeError text = .ok v) :
    v.console.err.bytes = w.console.err.bytes ++ Text.Utf8.encodeString text ∧ v.session = w.session := by
  simp only [World.writeError, writeConsole, apart.own, Bool.false_eq_true, ↓reduceIte] at written
  obtain ⟨err, wrote, rfl⟩ := ok_of_map_ok written
  exact ⟨Host.Sink.bytes_write wrote, rfl⟩

/-- An error stream that takes calls takes the report. -/
theorem Apart.writeError_served (apart : w.Apart) (served : Host.spend w.console.err.budget ≠ none)
    (text : String) : ∃ u, w.writeError text = .ok u := by
  obtain ⟨budget, spent⟩ := Option.ne_none_iff_exists'.mp served
  exact ⟨_, by simp only [World.writeError, writeConsole, apart.own, Host.Sink.write, spent]; rfl⟩

/-- A failure is told whether or not the error stream takes its report. -/
theorem Apart.reportError (apart : w.Apart) (client : w.session = some session)
    (attached : session.attached = true) (takes : Host.spend session.writer.budget ≠ none)
    (text : String) :
    w.Tells session text (w.reportError text).1 ∧ (w.reportError text).2 = .ok () := by
  obtain ⟨later, told, bytes, state⟩ :=
    Debug.Session.reportError_direct (apart.direct session client) attached takes text
  have kept := (session_writeError apart.own text).trans client
  have reported : w.reportError text =
      ({ (w.writeError text).toOption.getD w with session := some later }, .ok ()) := by
    simp only [World.reportError, kept, attached, told, ↓reduceIte]
  rw [reported]
  refine ⟨⟨⟨later, rfl, bytes, state⟩, fun served => ?_⟩, rfl⟩
  obtain ⟨u, written⟩ := apart.writeError_served served text
  rw [written]
  exact (apart.writeError written).1

/-- A text that is no program is told of after the error stream has taken the report. -/
theorem Apart.reportSyntax (apart : w.Apart) (client : w.session = some session)
    (attached : session.attached = true) (takes : Host.spend session.writer.budget ≠ none)
    (served : Host.spend w.console.err.budget ≠ none) (text : String) :
    w.Tells session text (Launch.reportSyntax w text).1 ∧ (Launch.reportSyntax w text).2 = .ok 1 := by
  obtain ⟨later, told, bytes, state⟩ :=
    Debug.Session.reportError_direct (apart.direct session client) attached takes text
  obtain ⟨u, written⟩ := apart.writeError_served served text
  obtain ⟨errors, kept⟩ := apart.writeError written
  have reported : Launch.reportSyntax w text = ({ u with session := some later }, .ok 1) := by
    simp only [Launch.reportSyntax, written, kept, client, told]
  rw [reported]
  exact ⟨⟨⟨later, rfl, bytes, state⟩, fun _ => errors⟩, rfl⟩

/-- The release at the end of a run leaves the streams and the client. -/
theorem release_keeps (w : World) (result : Except Fault Int) :
    (w.release result).1.session = w.session ∧ (w.release result).1.console = w.console := by
  have closed : w.closeListener.1.session = w.session ∧ w.closeListener.1.console = w.console := by
    unfold closeListener
    split
    · exact ⟨rfl, rfl⟩
    · dsimp only
      split <;> exact ⟨rfl, rfl⟩
  unfold release close
  generalize w.closeListener = left at closed
  obtain ⟨u, left⟩ := left
  rcases left with (failure | fault) | _ <;> exact closed

/-- The release does not turn an exit code of one into another. -/
theorem release_code (w : World) : (w.release (.ok (1 : Int))).2.toOption.getD 1 = 1 := by
  unfold release
  split <;> rfl

theorem Tells.of_same (tells : w.Tells session text v) (client : u.session = v.session)
    (console : u.console = v.console) : w.Tells session text u where
  client := by rw [client]; exact tells.client
  stream := by rw [console]; exact tells.stream

end World

/-! ## Runs -/

namespace Launch

/-- The machines of a run that is debugged over the network. Between its steps others act. They may change
the world in any way, but for where the console's output goes and whether the client sees it. -/
inductive Debugs (path : String) (text : Text) (w : World) : Machine → Prop where
  | begins {m : Machine} (begun : begin path text (overNetwork w) = .running m) : Debugs path text w m
  | step {m : Machine} (debugs : Debugs path text w m) : Debugs path text w m.step
  | others {m : Machine} (debugs : Debugs path text w m) (world : World)
      (forwarded : world.console.forwarded = m.world.console.forwarded)
      (mirrors : world.session.map (·.mirrors) = m.world.session.map (·.mirrors)) :
      Debugs path text w { m with world }

/-- A run that is debugged over the network reports an error: the world in which it does, and the end that
follows. A text that is no program is reported if the error stream takes it. -/
inductive Reported (path : String) (text : Text) (w : World) : ProgramError → World → Launch → Prop where
  | grammar {fault : Source.SyntaxFault} {position : Source.Position} {v : World}
      (introduced : introduce (overNetwork w) path text = .ok v)
      (refused : Source.Block.parse text.toString.toList = .error (.malformed fault position))
      (served : Host.spend v.console.err.budget ≠ none) :
      Reported path text w (fault.located position path) v (begin path text (overNetwork w))
  | failure {m : Machine} {failure : Failure} {position : Source.Position}
      (debugs : Debugs path text w m) (failed : m.outcome? = some (.failed failure position)) :
      Reported path text w (failure.located position path) m.world (step path (.running m))

variable {path : String} {text : Text} {w v : World} {m : Machine} {e : ProgramError} {after : Launch}
  {session : Session}

/-- The client that a run is introduced to over the network does not see the console. -/
theorem apart_introduce (own : w.console.forwarded = false)
    (introduced : introduce (overNetwork w) path text = .ok v) : v.Apart := by
  simp only [introduce, overNetwork] at introduced
  split at introduced
  next session started =>
    obtain rfl := Except.ok.inj introduced
    obtain ⟨later, sent, rfl⟩ := ok_of_map_ok started
    refine ⟨own, fun session client => ?_⟩
    obtain rfl := Option.some.inj client
    exact (Debug.Session.becomes_send sent).mirrors
  next => simp at introduced

theorem Debugs.apart (own : w.console.forwarded = false) (debugs : Debugs path text w m) :
    m.world.Apart := by
  -- a step puts no other session in the place of the client's, whatever the statement does
  induction debugs with
  | begins begun =>
    unfold begin at begun
    split at begun
    · simp [ended] at begun
    next introduced =>
      split at begun
      · obtain rfl := Launch.running.inj begun
        exact apart_introduce own introduced
      · simp [ended] at begun
      · simp [ended] at begun
  | step _ ih => exact ih.continues (Machine.continues_step _)
  | others _ world forwarded mirrors ih =>
    refine ⟨forwarded.trans ih.own, fun session client => ?_⟩
    rw [client] at mirrors
    obtain ⟨before, client, same⟩ := Option.map_eq_some_iff.mp mirrors.symm
    exact same.symm.trans (ih.direct before client)

/-- A reported error ends the run with exit code one, after the client was told of the error. -/
theorem Reported.ends (own : w.console.forwarded = false) (reported : Reported path text w e v after)
    (client : v.session = some session) (attached : session.attached = true)
    (takes : Host.spend session.writer.budget ≠ none) :
    ∃ u result, after = ended u result ∧ v.Tells session e.report u ∧ result.toOption.getD 1 = 1 := by
  cases reported with
  | @grammar fault position _ introduced refused served =>
    obtain ⟨tells, code⟩ := (apart_introduce own introduced).reportSyntax client attached takes served
      (fault.located position path).report
    have ends : begin path text (overNetwork w) =
        ended (reportSyntax v (fault.located position path).report).1
          (reportSyntax v (fault.located position path).report).2 := by
      simp only [begin, introduced, refused]
    exact ⟨_, _, ends, tells, congrArg (fun result => result.toOption.getD 1) code⟩
  | @failure m failure position debugs failed =>
    obtain ⟨tells, told⟩ := (debugs.apart own).reportError client attached takes
      (failure.located position path).report
    have settled : Machine.settleOutcome m.world path (.failed failure position) =
        ((m.world.reportError (failure.located position path).report).1, .ok 1) := by
      simp only [Machine.settleOutcome]
      generalize m.world.reportError _ = left at told
      obtain ⟨u, left⟩ := left
      obtain rfl : left = .ok () := told
      rfl
    generalize (m.world.reportError (failure.located position path).report).1 = left at tells settled
    have ends : step path (.running m) =
        ended (left.release (.ok (1 : Int))).1 (left.release (.ok (1 : Int))).2 := by
      simp only [step, failed, Machine.conclude, settled]
    obtain ⟨kept, same⟩ := left.release_keeps (.ok 1)
    exact ⟨_, _, ends, tells.of_same kept same, left.release_code⟩

end Launch

/-! ## The debugger -/

namespace Client

variable {c : Context} {m : ServerMessage} {rest : List ServerMessage}

/-- Messages that arrive where no line has begun go behind those in the queue. -/
theorem Transport.receive_messages {t : Transport} {messages : List ServerMessage}
    (active : t.reading = .active) (begun : t.begun = []) (sound : ∀ m ∈ messages, m.Sound) :
    (messages.flatMap ServerMessage.encode).foldl Transport.receive t =
      { t with queue := t.queue ++ messages } := by
  induction messages generalizing t with
  | nil => simp
  | cons m rest ih =>
    obtain ⟨said, passed, unbroken⟩ := Transport.message?_lineOf (sound m List.mem_cons_self)
    have first : m.encode.foldl Transport.receive t = { t with queue := t.queue ++ [m] } := by
      have line := Transport.receive_line active unbroken
      rw [begun, List.nil_append, Transport.readLine_passed passed, said] at line
      rw [begun]
      exact line
    rw [List.flatMap_cons, List.foldl_append, first,
      ih (by exact active) (by exact begun) fun other member => sound other (by simp [member])]
    simp

/-- What is known when bytes have arrived. -/
def Context.receive (c : Context) (bytes : List UInt8) : Context :=
  { c with transport := c.transport.map fun t => bytes.foldl Transport.receive t }

/-- Every message that has arrived was taken, and no line has begun. -/
def Context.Waits (c : Context) : Prop :=
  ∃ t : Transport, c.transport = some t ∧ t.reading = .active ∧ t.begun = [] ∧ t.queue = []

/-- Of messages that arrive the first one is taken, and the others wait. -/
theorem Context.Waits.await (waits : c.Waits) (sound : ∀ other ∈ m :: rest, other.Sound) :
    (c.receive ((m :: rest).flatMap ServerMessage.encode)).await =
      ((c.note m).receive (rest.flatMap ServerMessage.encode),
        match Halt.ofMessage? m with
        | some halt => .halt halt
        | none => .waiting) := by
  obtain ⟨t, connected, active, begun, empty⟩ := waits
  have arrived := Transport.receive_messages active begun sound
  have later := Transport.receive_messages active begun fun other member =>
    sound other (List.mem_cons_of_mem m member)
  have kept : (c.note m).transport = some t := (c.transport_note m).trans connected
  have received : c.receive ((m :: rest).flatMap ServerMessage.encode) =
      { c with transport := some { t with queue := m :: rest } } := by
    rw [Context.receive, connected, Option.map_some, arrived, empty, List.nil_append]
  have received' : (c.note m).receive (rest.flatMap ServerMessage.encode) =
      { c.note m with transport := some { t with queue := rest } } := by
    rw [Context.receive, kept, Option.map_some, later, empty, List.nil_append]
  rw [received, received']
  cases m <;> rfl

theorem Context.Waits.note (waits : c.Waits) (m : ServerMessage) : (c.note m).Waits := by
  obtain ⟨t, connected, reads⟩ := waits
  exact ⟨t, (c.transport_note m).trans connected, reads⟩

end Client

namespace Client

variable {c : Client} {m : ServerMessage} {rest : List ServerMessage} {control : Control} {halt : Halt}

/-- A debugger when bytes have arrived. -/
def receive (c : Client) (bytes : List UInt8) : Client :=
  { c with context := c.context.receive bytes }

/-- A debugger at work on a command takes note of a message that tells of no halt. -/
theorem take_receive (waits : c.context.Waits) (busy : c.activity ≠ .idle)
    (sound : ∀ other ∈ m :: rest, other.Sound) (silent : Halt.ofMessage? m = none) :
    (c.receive ((m :: rest).flatMap ServerMessage.encode)).take =
      { c with context := c.context.note m }.receive (rest.flatMap ServerMessage.encode) := by
  have awaited := waits.await sound
  rw [silent] at awaited
  unfold take receive
  simp only [awaited]
  split
  next idle => exact absurd idle busy
  · rfl
  · rfl

/-- The halt that answers a command shows the output. -/
theorem shown_receive (waits : c.context.Waits) (waiting : c.activity = .waiting control)
    (sound : m.Sound) (halts : Halt.ofMessage? m = some halt) (form : Form) :
    (c.receive m.encode).shown form = .ofOutput form c.context.output := by
  have alone : ∀ other ∈ [m], other.Sound := by simpa using sound
  have awaited := waits.await alone
  rw [halts, List.flatMap_singleton] at awaited
  have kept : ((c.context.note m).receive []).output = c.context.output := by
    cases m <;> simp [Halt.ofMessage?, Context.note, Context.receive] at halts ⊢
  unfold shown receive
  simp only [awaited, waiting]
  exact congrArg (Shown.ofOutput form) kept

/-- Text on the error stream is shown after what came before it. -/
theorem Shown.ofOutput_err (output : List (Text × Text)) (value : Text) :
    (Shown.ofOutput .text (output ++ [(Debug.stdErr, value)])).err =
      (Shown.ofOutput .text output).err ++ value := by
  simp [Shown.ofOutput]

/-- A report that arrives with an exit code is taken as output, and shown next. -/
theorem shown_report (waits : c.context.Waits) (busy : c.activity ≠ .idle) (text : String) :
    let c' := (c.receive ((reportMessage text).encode ++ (ServerMessage.exit 1).encode)).take
    let value := Text.ofLatin1 (Text.Utf8.encodeString text)
    c'.context.output = c.context.output ++ [(Debug.stdErr, value)] ∧ c'.activity = c.activity ∧
      ∀ control, c.activity = .waiting control →
        (c'.shown .text).err = (Shown.ofOutput .text c.context.output).err ++ value := by
  have sound : (reportMessage text).Sound := ServerMessage.sound_ofBytes _ (.inr rfl)
  have sound' : (ServerMessage.exit 1).Sound := Json.isShort_of_natAbs_lt 1 (by decide) (by decide)
  have taken : (c.receive ((reportMessage text).encode ++ (ServerMessage.exit 1).encode)).take =
      { c with context := c.context.note (reportMessage text) }.receive (ServerMessage.exit 1).encode := by
    have both : ∀ other ∈ [reportMessage text, .exit 1], other.Sound := by
      simpa using ⟨sound, sound'⟩
    simpa using take_receive waits busy both rfl
  rw [taken]
  refine ⟨rfl, rfl, fun control waiting => ?_⟩
  rw [shown_receive (c := { c with context := c.context.note (reportMessage text) })
    (waits.note _) waiting sound' rfl .text]
  exact Shown.ofOutput_err c.context.output _

end Client

/-- What a debugger shows of an error that a program reports. The run is of any text, debugged over the
network, with whatever others do to the world meanwhile; its client is there and takes messages. The
error stream has the report in UTF-8. The client is sent one message, and the run is at its end. A
debugger that is at work on a command takes the message as output, and shows it when the exit code
arrives. What it shows has the bytes of the report as its code points, so it is the report only if the
reason and the path in it are ASCII. -/
theorem report_shown {path : String} {text : Text} {w before : World} {after : Launch} {e : ProgramError}
    {session : Session} (own : w.console.forwarded = false)
    (reported : Launch.Reported path text w e before after) (client : before.session = some session)
    (attached : session.attached = true) (takes : Host.spend session.writer.budget ≠ none) :
    let value := Text.ofLatin1 (Text.Utf8.encodeString e.report)
    let told := ServerMessage.stream Debug.stdErr value
    let exit := ServerMessage.exit 1
    (∃ v result later, after = .finished v result ∧ v.session = some later ∧
      (later.writer.bytes = session.writer.bytes ++ told.encode ∨
        later.writer.bytes = session.writer.bytes ++ told.encode ++ exit.encode) ∧
      (Host.spend before.console.err.budget ≠ none →
        v.console.err.bytes = before.console.err.bytes ++ Text.Utf8.encodeString e.report)) ∧
    (∀ c : Client, c.context.Waits → c.activity ≠ .idle →
      let c' := (c.receive (told.encode ++ exit.encode)).take
      c'.context.output = c.context.output ++ [(Debug.stdErr, value)] ∧ c'.activity = c.activity ∧
      ∀ control, c.activity = .waiting control →
        (c'.shown .text).err = (Client.Shown.ofOutput .text c.context.output).err ++ value) ∧
    (value = Text.ofString e.report ↔ IsAscii e.reason ∧ IsAscii e.path) := by
  intro value told exit
  refine ⟨?_, fun c waits busy => Client.shown_report waits busy e.report,
    (Text.ofLatin1_encodeString_iff _).trans e.isAscii_report⟩
  obtain ⟨u, result, rfl, ⟨⟨later, client', bytes, state⟩, stream⟩, code⟩ :=
    reported.ends own client attached takes
  have live : later.state ≠ .finished := by
    simp only [Debug.Session.attached, Bool.and_eq_true, bne_iff_ne] at attached
    exact state ▸ attached.2
  refine ⟨_, _, later.close 1, rfl, by rw [client', code]; rfl, ?_, stream⟩
  rw [← show reportMessage e.report = told from rfl, ← bytes]
  exact later.bytes_close_cases live 1

/-- A debugger that connects to a program that is no more than a closing bracket gets the report as it
is. -/
theorem report_shown_bracket :
    let e := Source.SyntaxFault.strayClose.located ⟨1, 1⟩ "loop.bf"
    let told := ServerMessage.stream Debug.stdErr (.ofLatin1 (Text.Utf8.encodeString e.report))
    let exit := ServerMessage.exit 1
    let c : Client := { context := { transport := some {} }, activity := .connecting .step }
    ∃ before after session v, Launch.Reported "loop.bf" [0x5D] {} e before after ∧
      before.session = some session ∧ session.attached = true ∧
      Host.spend session.writer.budget ≠ none ∧
      (∃ result, after = .finished v result) ∧
      v.console.err.bytes = Text.Utf8.encodeString e.report ∧
      (c.receive (told.encode ++ exit.encode)).take.context.output =
        [(Debug.stdErr, Text.ofString e.report)] := by
  intro e told exit c
  have refused : Source.Block.parse "]".toList = .error (.malformed .strayClose ⟨1, 1⟩) := rfl
  have connects : ∃ before session,
      Launch.introduce (Launch.overNetwork {}) "loop.bf" [0x5D] = .ok before ∧
      before.session = some session ∧ session.attached = true ∧
      Host.spend session.writer.budget ≠ none ∧ Host.spend before.console.err.budget ≠ none ∧
      before.console.err.bytes = [] :=
    ⟨_, _, rfl, rfl, rfl, by decide, by decide, rfl⟩
  obtain ⟨before, session, introduced, client, attached, takes, served, silent⟩ := connects
  have reported := Launch.Reported.grammar introduced refused served
  have ascii : IsAscii Source.SyntaxFault.strayClose.message ∧ IsAscii "loop.bf" := by decide
  obtain ⟨⟨v, result, later, after, -, -, stream⟩, shown, verbatim⟩ :=
    report_shown rfl reported client attached takes
  have errors := stream served
  rw [silent, List.nil_append] at errors
  have received (c : Client) (waits : c.context.Waits) (busy : c.activity ≠ .idle) :
      (c.receive (told.encode ++ exit.encode)).take.context.output =
        c.context.output ++ [(Debug.stdErr, Text.ofString e.report)] := by
    refine (shown c waits busy).1.trans ?_
    rw [verbatim.mpr ascii]
  exact ⟨before, _, session, v, reported, client, attached, takes, ⟨result, after⟩, errors,
    received c ⟨{}, rfl, rfl, rfl, rfl⟩ (by simp [c])⟩

/-- The report of a program whose file has an accent in its name is not shown as it is. -/
theorem report_shown_accented :
    let e := Failure.underflow.located ⟨1, 1⟩ "é.bf"
    let c : Client := { context := { transport := some {} }, activity := .waiting .resume }
    let exit := ServerMessage.exit 1
    ∃ before session v later, Launch.Reported "é.bf" [0x3C] {} e before (.finished v (.ok 1)) ∧
      before.session = some session ∧ v.session = some later ∧
      later.writer.bytes = session.writer.bytes ++ ((reportMessage e.report).encode ++ exit.encode) ∧
      ((c.receive ((reportMessage e.report).encode ++ exit.encode)).take.shown .text).err ≠
        Text.ofString e.report := by
  intro e c exit
  -- the statement is looked at, and then it fails
  have run : ∃ m before session v later,
      Launch.begin "é.bf" [0x3C] (Launch.overNetwork {}) = .running m ∧
      before = m.step.step.world ∧
      m.step.step.outcome? = some (.failed .underflow ⟨1, 1⟩) ∧ before.session = some session ∧
      Launch.step "é.bf" (.running m.step.step) = .finished v (.ok 1) ∧ v.session = some later ∧
      later.writer.chunks =
        exit.encode :: (reportMessage e.report).encode :: session.writer.chunks :=
    ⟨_, _, _, _, _, rfl, rfl, rfl, rfl, rfl, rfl, rfl⟩
  obtain ⟨m, before, session, v, later, begun, same, failed, client, ended, client', chunks⟩ := run
  have reported := Launch.Reported.failure (.step (.step (.begins begun))) failed
  rw [ended, ← same] at reported
  refine ⟨before, session, v, later, reported, client, client', by simp [Host.Sink.bytes, chunks], ?_⟩
  have accented : ¬ IsAscii "é.bf" := by decide
  have waits : c.context.Waits := ⟨{}, rfl, rfl, rfl, rfl⟩
  have shown := (Client.shown_report waits (by simp [c]) e.report).2.2 .resume rfl
  have first : (Client.Shown.ofOutput .text c.context.output).err = [] := rfl
  rw [shown, first, List.nil_append]
  exact fun verbatim =>
    accented (e.isAscii_report.mp ((Text.ofLatin1_encodeString_iff _).mp verbatim)).2

end TapeLang

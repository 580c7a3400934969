import Mathlib.Data.List.Induction
import TapeLang.Client.Entry
import TapeLang.Proofs.Verbatim

/-!
What a debugger shows of where the program is. It keeps the last pause it has heard of and the exit code,
and its journal says what it has heard of and done. The two agree (`Informed`), whatever happens and in
whatever order. A view that is shown tells of the last halt, then, and no halt is awaited when it is
shown (`Faithful`).

That no halt is awaited does not mean that none is to come: a wait may end with the connection, or
because its time is up, and the pause before it is still kept. So a pause that is shown is the last halt,
and nothing has been sent since, unless a wait has ended otherwise (`pause_shown_current`); where one has,
the pause is outdated (`pause_shown_outdated`).
-/
namespace TapeLang.Shell

open Client (Context Control Halt Reply Report Transport Verb View)
open Debug (ServerMessage Snapshot)

/-! ## What a journal tells -/

namespace Act

def halt? : Act → Option Halt
  | .hears halt => some halt
  | _ => none

def control? : Act → Option Control
  | .sends control => some control
  | _ => none

/-- Whether a halt is awaited after an act, given whether one was awaited before. -/
def awaits (awaited : Bool) : Act → Bool
  | .sends _ => true
  | .hears _ | .loses | .tires => false
  | .forwards _ | .reports _ => awaited

end Act

/-- The last halt that was heard of. -/
def lastHalt (journal : List Act) : Option Halt := (journal.filterMap Act.halt?).getLast?

/-- The last exit that was heard of. -/
def lastExit (journal : List Act) : Option Int :=
  (journal.filterMap fun act => act.halt?.bind Halt.code?).getLast?

/-- All bytes that were sent. -/
def sentBytes (journal : List Act) : List UInt8 :=
  (journal.filterMap Act.control?).flatMap (·.command.encode)

/-- Whether a command has been sent and its wait has not ended. -/
def awaits (journal : List Act) : Bool := journal.foldl Act.awaits false

/-- Where the program is, as far as a journal tells. -/
def known (journal : List Act) : View :=
  .ofKnown (lastExit journal) ((lastHalt journal).bind Halt.snapshot?)

variable {journal before after : List Act} {act : Act} {view : View}

theorem lastHalt_concat : lastHalt (journal ++ [act]) = act.halt?.or (lastHalt journal) := by
  rw [lastHalt, List.filterMap_append, List.getLast?_append, ← lastHalt]
  cases act <;> rfl

theorem lastExit_concat :
    lastExit (journal ++ [act]) = (act.halt?.bind Halt.code?).or (lastExit journal) := by
  rw [lastExit, List.filterMap_append, List.getLast?_append, ← lastExit]
  cases act with
  | hears halt => cases halt <;> rfl
  | _ => rfl

theorem sentBytes_concat :
    sentBytes (journal ++ [act]) =
      sentBytes journal ++ act.control?.toList.flatMap (·.command.encode) := by
  rw [sentBytes, List.filterMap_append, List.flatMap_append, ← sentBytes]
  cases act <;> rfl

theorem awaits_concat : awaits (journal ++ [act]) = act.awaits (awaits journal) := by
  rw [awaits, List.foldl_append, awaits]
  rfl

/-- The last halt that was heard of stands in the journal, and no halt after it. -/
theorem exists_of_lastHalt {halt : Halt} (last : lastHalt journal = some halt) :
    ∃ earlier since, journal = earlier ++ .hears halt :: since ∧ ∀ act ∈ since, act.halt? = none := by
  induction journal using List.reverseRecOn with
  | nil => exact nomatch last
  | append_singleton journal act ih =>
    rw [lastHalt_concat] at last
    cases tells : act.halt? with
    | some heard =>
      obtain rfl : heard = halt := by simpa [tells] using last
      cases act <;> simp [Act.halt?] at tells
      exact ⟨journal, [], by rw [tells], by simp⟩
    | none =>
      obtain ⟨earlier, since, rfl, silent⟩ := ih (by simpa [tells] using last)
      refine ⟨earlier, since ++ [act], by simp, fun other member => ?_⟩
      rcases List.mem_append.mp member with inside | last
      · exact silent other inside
      · exact List.mem_singleton.mp last ▸ tells

/-- A wait has ended without a halt. -/
def Act.Cuts (act : Act) : Prop := act = .loses ∨ act = .tires

/-- A wait goes on over what neither tells of a halt nor ends it. -/
theorem awaits_foldl {acts : List Act} (silent : ∀ act ∈ acts, act.halt? = none)
    (whole : ∀ act ∈ acts, ¬ act.Cuts) : acts.foldl Act.awaits true = true := by
  induction acts with
  | nil => rfl
  | cons act acts ih =>
    rw [List.forall_mem_cons] at silent whole
    have goesOn : act.awaits true = true := by
      cases act with
      | sends | forwards | reports => rfl
      | hears => exact nomatch silent.1
      | loses => exact absurd (.inl rfl) whole.1
      | tires => exact absurd (.inr rfl) whole.1
    rw [List.foldl_cons, goesOn, ih silent.2 whole.2]

/-- An error that may be shown in the place of a view: there is no connection, or the time to wait for
the first halt is up. -/
def Blind (journal : List Act) (view : View) : Prop :=
  (∃ reason, view = .failed (unconnected reason)) ∨
    view = .failed timedOut ∧ journal.getLast? = some .tires

/-- A view that may be shown after a journal: an error, or what the journal tells, when no halt is
awaited. -/
def Faithful (journal : List Act) (view : View) : Prop :=
  Blind journal view ∨ view = known journal ∧ awaits journal = false

/-! ## What the debugger knows -/

/-- A debugger knows what its journal tells, it has sent what is there, it waits for the halt that is
awaited, and every view it has shown was one to be shown. -/
structure Informed (s : Shell) : Prop where
  exit : s.client.context.exitCode = lastExit s.journal
  state : s.client.context.lastState = (lastHalt s.journal).bind Halt.snapshot?
  sent : s.client.sent = sentBytes s.journal
  waiting : awaits s.journal = true → ∃ control, s.client.activity = .waiting control
  apart : s.looking = true → s.client.activity = .idle
  faithful : ∀ before view after, s.journal = before ++ .reports (.view view) :: after →
    Faithful before view

variable {s : Shell} {context : Context} {control : Control} {halt : Halt} {reply : Reply}

theorem Informed.view_eq (informed : s.Informed) : s.client.context.view = known s.journal := by
  rw [Context.view, known, informed.exit, informed.state]

/-- What is known does not depend on the outside, on the connection or on what came of a command. -/
theorem Informed.apart_from (informed : s.Informed) (transport : Option Transport) (dialing : Dialing)
    (outgoing : Outgoing) (outcome : Option Outcome) :
    Informed { s with
      dialing, outgoing, outcome
      client := { s.client with context := { s.client.context with transport } } } :=
  ⟨informed.exit, informed.state, informed.sent, informed.waiting, informed.apart, informed.faithful⟩

/-- Nothing is awaited while no command is at work. -/
theorem Informed.free (informed : s.Informed) (idle : s.client.activity = .idle) :
    awaits s.journal = false := by
  by_contra awaited
  obtain ⟨control, waiting⟩ := informed.waiting ((Bool.not_eq_false _).mp awaited)
  exact absurd (idle.symm.trans waiting) (by simp)

/-- A view at the end of a journal is new, and any other view was there before. -/
theorem faithful_concat
    (old : ∀ before view after, journal = before ++ .reports (.view view) :: after →
      Faithful before view)
    (new : ∀ view, act = .reports (.view view) → Faithful journal view)
    (shown : journal ++ [act] = before ++ .reports (.view view) :: after) : Faithful before view := by
  rcases List.eq_nil_or_concat after with rfl | ⟨after, last, rfl⟩
  · obtain ⟨rfl, last⟩ := List.append_inj' shown rfl
    exact new view (List.cons.inj last).1
  · rw [List.concat_eq_append, ← List.cons_append, ← List.append_assoc] at shown
    exact old before view after (List.append_inj' shown rfl).1

/-- Recording what tells of no halt and sends nothing. -/
theorem Informed.record (informed : s.Informed) (act : Act) (silent : act.halt? = none)
    (unsent : act.control? = none)
    (waiting : act.awaits (awaits s.journal) = true → ∃ control, s.client.activity = .waiting control)
    (faithful : ∀ view, act = .reports (.view view) → Faithful s.journal view) :
    (s.record act).Informed where
  exit := informed.exit.trans (by rw [Shell.record, lastExit_concat, silent]; rfl)
  state := informed.state.trans (by rw [Shell.record, lastHalt_concat, silent]; rfl)
  sent := informed.sent.trans (by
    rw [Shell.record, sentBytes_concat, unsent]; exact (List.append_nil _).symm)
  waiting awaited := waiting (awaits_concat ▸ awaited)
  apart := informed.apart
  faithful _ _ _ := faithful_concat informed.faithful faithful

/-- A wait ends without a halt. -/
theorem Informed.cut (informed : s.Informed) (act : Act) (silent : act.halt? = none)
    (unsent : act.control? = none) (ends : ∀ awaited, act.awaits awaited = false) :
    (s.record act).Informed ∧ awaits (s.record act).journal = false := by
  have ended : act.awaits (awaits s.journal) ≠ true := by simp [ends]
  refine ⟨informed.record act silent unsent (fun awaited => absurd awaited ended) fun view same => ?_,
    awaits_concat.trans (ends _)⟩
  subst same
  exact absurd (ends true) (by simp [Act.awaits])

theorem Informed.loses (informed : s.Informed) :
    (s.record .loses).Informed ∧ awaits (s.record .loses).journal = false :=
  informed.cut .loses rfl rfl fun _ => rfl

theorem Informed.tires (informed : s.Informed) :
    (s.record .tires).Informed ∧ awaits (s.record .tires).journal = false :=
  informed.cut .tires rfl rfl fun _ => rfl

/-- A halt is heard of. -/
theorem Informed.hears (informed : s.Informed) {message : ServerMessage}
    (told : Halt.ofMessage? message = some halt)
    (exit : context.exitCode = (s.client.context.note message).exitCode)
    (state : context.lastState = (s.client.context.note message).lastState) :
    let t := { s with client := { s.client with context } }.record (.hears halt)
    t.Informed ∧ awaits t.journal = false := by
  refine ⟨⟨exit.trans ?_, state.trans ?_, informed.sent.trans ?_, fun awaited => ?_, informed.apart,
    fun _ _ _ => ?_⟩, awaits_concat⟩
  · rw [Shell.record, lastExit_concat, ← informed.exit]
    cases message <;> simp [Halt.ofMessage?] at told <;> subst told <;> rfl
  · rw [Shell.record, lastHalt_concat]
    cases message <;> simp [Halt.ofMessage?] at told <;> subst told <;> rfl
  · rw [Shell.record, sentBytes_concat]
    exact (List.append_nil _).symm
  · exact absurd (awaits_concat.symm.trans awaited) (by simp [Act.awaits])
  · exact faithful_concat informed.faithful (by simp)

/-! ## The end of a command -/

theorem Informed.report (informed : s.Informed) (report : Report)
    (faithful : ∀ view, report = .view view → Faithful s.journal view) : (s.report report).Informed :=
  have recorded := informed.record (.reports report) rfl rfl informed.waiting fun view same =>
    faithful view (Act.reports.inj same)
  recorded.apart_from _ _ _ _

/-- A command ends where no halt is awaited. -/
theorem Informed.settle (informed : s.Informed) (free : awaits s.journal = false) (client : Client)
    (exit : client.context.exitCode = s.client.context.exitCode)
    (state : client.context.lastState = s.client.context.lastState)
    (sent : client.sent = s.client.sent) (idle : client.activity = .idle) :
    Informed { s with client } where
  exit := exit.trans informed.exit
  state := state.trans informed.state
  sent := sent.trans informed.sent
  waiting awaited := absurd (free.symm.trans awaited) Bool.false_ne_true
  apart _ := idle
  faithful := informed.faithful

theorem Informed.fail (informed : s.Informed) (free : awaits s.journal = false) (control : Control)
    (reason : String) : (s.fail control reason).Informed :=
  (informed.settle free (s.client.fail control reason) rfl rfl rfl rfl).report _ nofun

theorem Informed.raise (informed : s.Informed) (free : awaits s.journal = false) (mishap : Mishap) :
    (s.raise mishap).Informed :=
  have settled := informed.settle free { s.client with activity := .idle } rfl rfl rfl rfl
  ⟨settled.exit, settled.state, settled.sent, settled.waiting, nofun, settled.faithful⟩

/-- Output that is shown changes nothing about what is known. -/
theorem Informed.forward (informed : s.Informed) :
    s.forward.Informed ∧ awaits s.forward.journal = awaits s.journal := by
  have same : Informed { s with client := { s.client with context := s.client.context.takeOutput.2 } } :=
    ⟨informed.exit, informed.state, informed.sent, informed.waiting, informed.apart, informed.faithful⟩
  exact ⟨same.record (.forwards _) rfl rfl informed.waiting nofun, awaits_concat⟩

theorem Informed.answer (informed : s.Informed) (free : awaits s.journal = false) (reply : Reply) :
    (s.answer reply).Informed := by
  obtain ⟨forwarded, same⟩ := informed.forward
  exact (forwarded.settle (same.trans free) (s.forward.client.answered reply) rfl rfl rfl rfl).report _
    nofun

theorem Informed.showView (informed : s.Informed) (idle : s.client.activity = .idle) :
    s.showView.Informed := by
  have stopped : Informed { s with looking := false } :=
    ⟨informed.exit, informed.state, informed.sent, informed.waiting, fun _ => idle, informed.faithful⟩
  obtain ⟨forwarded, same⟩ := stopped.forward
  refine forwarded.report _ fun view seen => .inr ⟨?_, same.trans (informed.free idle)⟩
  rw [← Report.view.inj seen, forwarded.view_eq]

/-! ## The course of a command -/

theorem Informed.wait (informed : s.Informed) : s.wait.Informed := by
  unfold Shell.wait
  split
  · exact informed.tires.1.raise informed.tires.2 _
  · exact informed

/-- A command goes out, and is waited for from then on. -/
theorem Informed.sends (informed : s.Informed) (apart : s.looking = false) (control : Control) :
    Informed ({ s with client := { s.client with
      activity := .waiting control
      sent := s.client.sent ++ control.command.encode } }.record (.sends control)) where
  exit := informed.exit.trans (by rw [Shell.record, lastExit_concat]; rfl)
  state := informed.state.trans (by rw [Shell.record, lastHalt_concat]; rfl)
  sent := by
    rw [Shell.record, sentBytes_concat, ← informed.sent]
    exact congrArg (s.client.sent ++ ·) (List.flatMap_singleton ..).symm
  waiting _ := ⟨control, rfl⟩
  apart looking := absurd (apart.symm.trans looking) Bool.false_ne_true
  faithful _ _ _ := faithful_concat informed.faithful (by simp)

/-- A command is sent where no halt is awaited. -/
theorem Informed.send (informed : s.Informed) (free : awaits s.journal = false) (control : Control)
    (apart : s.looking = false) : (s.send control).Informed := by
  unfold Shell.send
  split
  · exact informed.fail free _ _
  next going =>
    split
    next connected =>
      split
      next reason _ =>
        have cut : Informed { s with outgoing := .cut } := informed.apart_from _ _ _ _
        exact cut.loses.1.fail cut.loses.2 _ _
      next =>
        rw [send_connected going connected]
        exact (informed.sends apart control).wait
    · exact informed.loses.1.fail informed.loses.2 _ _

theorem idle_of_not_busy (idle : s.busy = false) : s.looking = false ∧ s.client.activity = .idle := by
  simpa [Shell.busy] using idle

theorem Informed.undertake (informed : s.Informed) (idle : s.busy = false) (control : Control) :
    (s.undertake control).Informed := by
  obtain ⟨apart, still⟩ := idle_of_not_busy idle
  have free := informed.free still
  unfold Shell.undertake
  split
  · exact informed.raise free _
  · split
    next problem refused =>
      have same : s.client.undertake control = { s.client with reply := some (.refused problem) } := by
        simp only [Client.undertake, refused]
      rw [same]
      exact (informed.settle free { s.client with reply := some (.refused problem) } rfl rfl rfl
        still).report _ (by simp)
    next accepted =>
      split
      · exact informed.send free control apart
      next away _ =>
        have same : s.client.undertake control =
            { s.client with
              context := { s.client.context with transport := some {} }
              activity := .connecting control } := by
          rw [Shell.transport] at away
          simp only [Client.undertake, accepted, away]
        rw [same]
        refine Informed.wait ⟨informed.exit, informed.state, informed.sent, fun awaited => ?_,
          fun looking => ?_, informed.faithful⟩
        · exact absurd (free.symm.trans awaited) Bool.false_ne_true
        · exact absurd (apart.symm.trans looking) Bool.false_ne_true
      · exact informed.fail free _ _
      · exact informed.raise free _

theorem Informed.look (informed : s.Informed) (idle : s.client.activity = .idle) :
    s.look.Informed := by
  unfold Shell.look
  split
  · exact informed.showView idle
  · exact Informed.wait ⟨informed.exit, informed.state, informed.sent, informed.waiting, fun _ => idle,
      informed.faithful⟩
  · exact informed.report _ fun view seen => .inl (.inl ⟨_, (Report.view.inj seen).symm⟩)
  · exact informed.raise (informed.free idle) _

theorem Informed.leave (informed : s.Informed) : s.leave.Informed := by
  have told : Informed (if s.connected && s.client.context.exitCode.isNone then
      s.record (.reports .detaching) else s) := by
    split
    · exact informed.record _ rfl rfl informed.waiting nofun
    · exact informed
  unfold Shell.leave
  dsimp only
  split
  · exact told.loses.1.apart_from _ _ _ _
  · exact told.apart_from _ _ _ _

theorem Informed.begin (informed : s.Informed) (idle : s.busy = false) (verb : Verb)
    (arguments : List Text) : (s.begin verb arguments).Informed := by
  obtain ⟨-, still⟩ := idle_of_not_busy idle
  unfold Shell.begin
  split
  next task _ =>
    cases task with
    | help => exact informed.report _ nofun
    | look => exact informed.look still
    | control control => exact informed.undertake idle control
    | leave => exact informed.leave
  · exact informed.report _ nofun
  · exact informed.report _ nofun
  · exact informed.raise (informed.free still) _

theorem Informed.enter (informed : s.Informed) (entry : Entry) (line : Text) :
    (s.enter entry line).Informed := by
  unfold Shell.enter
  split
  · exact informed
  next idle =>
    split
    · exact informed.apart_from _ _ _ _
    · exact informed.report _ nofun
    · exact informed.report _ nofun
    · have cleared : Informed { s with outcome := none } := informed.apart_from _ _ _ _
      exact cleared.begin ((Bool.not_eq_true _).mp idle) _ _

/-! ## What happens while a command waits -/

/-- After a wait a command goes on. -/
theorem Informed.goOn (informed : s.Informed) (free : awaits s.journal = false) (reply : Reply) :
    (s.goOn reply).Informed := by
  unfold Shell.goOn
  split
  next looking => exact informed.showView (informed.apart looking)
  next apart =>
    split
    · exact informed
    · exact informed.send free _ (by simpa using apart)
    · exact informed.answer free reply

/-- The time of a wait is up. -/
theorem Informed.giveUp (informed : s.Informed) : (s.record .tires).giveUp.Informed := by
  obtain ⟨tired, free⟩ := informed.tires
  unfold Shell.giveUp
  split
  next looking =>
    have stopped : Informed { s.record .tires with looking := false } :=
      ⟨tired.exit, tired.state, tired.sent, tired.waiting, fun _ => tired.apart looking, tired.faithful⟩
    refine stopped.report _ fun view seen => .inl (.inr ⟨(Report.view.inj seen).symm, ?_⟩)
    exact List.getLast?_concat
  · split
    · exact tired
    · exact tired.fail free _ _
    · exact tired.fail free _ _

theorem Informed.elapse (informed : s.Informed) : s.elapse.Informed := by
  unfold Shell.elapse
  split
  · split
    · exact informed
    · exact informed
    · exact informed.giveUp
    · exact informed.tires.1.raise informed.tires.2 _
  · exact informed

/-- The next message, if there is one, is noted, and tells of a halt or of none. -/
theorem await_cases (c : Context) :
    (∃ message : ServerMessage, ∃ context : Context,
      context.exitCode = (c.note message).exitCode ∧ context.lastState = (c.note message).lastState ∧
        c.await = (context, match Halt.ofMessage? message with
          | some halt => .halt halt
          | none => .waiting)) ∨
      c.await = (c, .waiting) ∨ c.await = (c, .gone) := by
  unfold Context.await
  split
  · exact .inr (.inl rfl)
  · split
    next message rest _ => exact .inl ⟨message, _, by cases message <;> rfl, by cases message <;> rfl, rfl⟩
    · split
      · exact .inr (.inr rfl)
      · exact .inr (.inl rfl)

theorem Informed.take (informed : s.Informed) : s.take.Informed := by
  unfold Shell.take
  split
  · rcases await_cases s.client.context with ⟨message, context, exit, state, awaited⟩ | awaited | awaited
    · cases told : Halt.ofMessage? message with
      | some halt =>
        simp only [awaited, told]
        obtain ⟨heard, free⟩ := informed.hears told exit state
        exact heard.goOn free _
      | none =>
        simp only [awaited, told]
        refine ⟨exit.trans ?_, state.trans ?_, informed.sent, informed.waiting, informed.apart,
          informed.faithful⟩
        · cases message <;> first | exact informed.exit | exact nomatch told
        · cases message <;> first | exact informed.state | exact nomatch told
    · simp only [awaited]
      exact informed
    · simp only [awaited]
      exact informed.loses.1.goOn informed.loses.2 _
  · exact informed

theorem Informed.happen (informed : s.Informed) (event : Event) : (s.happen event).Informed := by
  cases event with
  | take => exact informed.take
  | elapse => exact informed.elapse
  | arrive | close | dial => exact informed.apart_from _ _ _ _
  | hamper reason =>
    simp only [Shell.happen]
    split
    · exact informed
    · exact informed.apart_from _ _ _ _

theorem Informed.run (informed : s.Informed) (inputs : List Input) : (s.run inputs).Informed := by
  induction inputs generalizing s with
  | nil => exact informed
  | cons input inputs ih =>
    refine ih ?_
    cases input with
    | enter entry line => exact informed.enter entry line
    | event event => exact informed.happen event

/-! ## Views -/

theorem lastHalt_of_known {snapshot : Snapshot} (same : known journal = .paused snapshot) :
    lastExit journal = none ∧ lastHalt journal = some (.paused snapshot) := by
  unfold known at same
  cases exit : lastExit journal with
  | some code => simp [exit, View.ofKnown] at same
  | none =>
    cases last : lastHalt journal with
    | none => simp [exit, last, View.ofKnown] at same
    | some halt => cases halt <;> simp_all [View.ofKnown, Halt.snapshot?]

/-- The debugger knows nothing before anything has happened. -/
theorem informed_initial (form : Client.Form) (patience : Patience) (dialing : Dialing) :
    Informed { form, patience, dialing } :=
  ⟨rfl, rfl, rfl, nofun, nofun, by simp⟩

/-- Where the debugger is connected and at rest, a line that asks for a view gets what the journal tells. -/
theorem Informed.shows (informed : s.Informed) (idle : s.busy = false) (connected : s.transport.isSome)
    {entry : Entry} {line : Text} {arguments : List Text}
    (asks : entry.resolve line = .command .state arguments) :
    ∃ output, (s.enter entry line).journal =
      s.journal ++ [.forwards output, .reports (.view (known s.journal))] := by
  obtain ⟨transport, there⟩ := Option.isSome_iff_exists.mp connected
  have looks : s.enter entry line = { s with outcome := none }.showView := by
    have there : Shell.transport { s with outcome := none } = some transport := there
    rw [Shell.enter, if_neg (by simp [idle]), asks]
    simp only [Shell.begin, Verb.task, Shell.perform, Shell.look, there]
  refine ⟨s.client.context.output, ?_⟩
  rw [looks, ← informed.view_eq]
  exact List.append_assoc _ _ _

/-- Whatever lines are entered and whatever the outside does, what has been sent stands in the journal.
Where the debugger is connected and at rest, a line that asks for a view gets one, and every view that is
shown is an error, for want of a connection or of time, or tells of the last exit, or else of the last halt
if there is one. A pause that is shown is the last halt that was heard of, and every command that has been
sent since then has lost its wait: the connection was found to have ended, or the time was up. -/
theorem pause_shown_current (form : Client.Form) (patience : Patience) (dialing : Dialing)
    (inputs : List Input) :
    let t := ({ form, patience, dialing } : Shell).run inputs
    t.client.sent = sentBytes t.journal ∧
      (t.busy = false → t.transport.isSome →
        ∀ (entry : Entry) (line : Text) (arguments : List Text),
          entry.resolve line = .command .state arguments →
            ∃ output, (t.enter entry line).journal =
              t.journal ++ [.forwards output, .reports (.view (known t.journal))]) ∧
      ∀ before view after, t.journal = before ++ .reports (.view view) :: after →
        Blind before view ∨
          view = known before ∧
            ∀ snapshot, view = .paused snapshot →
              lastExit before = none ∧
                ∃ earlier since, before = earlier ++ .hears (.paused snapshot) :: since ∧
                  (∀ act ∈ since, act.halt? = none) ∧
                  ∀ idle control later, since = idle ++ .sends control :: later →
                    ∃ act ∈ later, act.Cuts := by
  intro t
  have informed : t.Informed := (informed_initial form patience dialing).run inputs
  refine ⟨informed.sent,
    fun idle connected entry line arguments asks => informed.shows idle connected asks,
    fun before view after shown => ?_⟩
  rcases informed.faithful before view after shown with blind | ⟨same, free⟩
  · exact .inl blind
  refine .inr ⟨same, fun snapshot paused => ?_⟩
  obtain ⟨going, last⟩ := lastHalt_of_known (same.symm.trans paused)
  obtain ⟨earlier, since, rfl, silent⟩ := exists_of_lastHalt last
  refine ⟨going, earlier, since, rfl, silent, fun idle control later parts => ?_⟩
  by_contra whole
  subst parts
  have awaited : later.foldl Act.awaits true = true :=
    awaits_foldl (fun act member => silent act (by simp [member])) fun act member cuts =>
      whole ⟨act, member, cuts⟩
  simp only [awaits, List.foldl_append, List.foldl_cons, Act.awaits, awaited] at free
  exact Bool.noConfusion free

/-- A pause with no statement to name. -/
def pauseAt (cursor : Nat) : Snapshot := { statement := [], position := [], cursor, tape := [0, 0] }

/-- The program tells of a pause, and a command hears of it. -/
def tellPause (cursor : Nat) : List Input :=
  [.event (.arrive (ServerMessage.state (pauseAt cursor)).encode), .event .take]

/-- A pause that is told of to one who has read everything so far is the next message. -/
theorem run_tellPause {cursor : Nat} (small : cursor < 10) (there : s.transport = some {}) :
    s.run (tellPause cursor) =
      (s.setTransport (some { queue := [ServerMessage.state (pauseAt cursor)] })).take := by
  have sound : (ServerMessage.state (pauseAt cursor)).Sound := by
    refine ⟨⟨List.nodup_nil, trivial⟩, ⟨List.nodup_nil, trivial⟩, ?_, by simp [pauseAt]⟩
    exact Json.isShort_of_natAbs_lt 1 (by decide) (by simpa [pauseAt] using small)
  have arrived : (ServerMessage.state (pauseAt cursor)).encode.foldl Transport.receive {} =
      { queue := [ServerMessage.state (pauseAt cursor)] } := by
    rw [← List.flatMap_singleton ServerMessage.encode]
    exact Transport.receive_messages rfl rfl (by simpa using sound)
  simp only [run, tellPause, List.foldl_cons, List.foldl_nil, accept, happen, there, Option.map_some,
    arrived]

theorem run_append (s : Shell) (first second : List Input) :
    s.run (first ++ second) = (s.run first).run second := List.foldl_append

/-- A debugger that has heard of a pause and sent a step. -/
def stepping : Shell where
  client :=
    { context := { transport := some {}, lastState := some (pauseAt 0) }
      activity := .waiting .step
      sent := Control.step.command.encode }
  journal := [.hears (.paused (pauseAt 0)), .sends .step]

/-- The first step connects and waits for a pause, and then is sent. -/
theorem run_step (entry : Entry) :
    ({} : Shell).run (.enter entry (.ofString "step") :: tellPause 0) = stepping := by
  have connecting : ({} : Shell).enter entry (.ofString "step") =
      { client := { context := { transport := some {} }, activity := .connecting .step } } := by
    cases entry <;> rfl
  have first : ({} : Shell).run (.enter entry (.ofString "step") :: tellPause 0) =
      (({} : Shell).enter entry (.ofString "step")).run (tellPause 0) := rfl
  rw [first, connecting, run_tellPause (by decide) rfl]
  rfl

/-- After a step the pause that is shown is the one after it. -/
theorem pause_shown_current_step :
    let step := Input.enter .prompt (.ofString "step")
    let state := Input.enter .oneShot (.ofString "state")
    let inputs := step :: tellPause 0 ++ (tellPause 1 ++ [state])
    ∃ before, (({} : Shell).run inputs).journal =
        before ++ [.reports (.view (.paused (pauseAt 1)))] ∧
      .sends .step ∈ before ∧ View.paused (pauseAt 1) = known before ∧
      ∃ earlier since, before = earlier ++ .hears (.paused (pauseAt 1)) :: since ∧
        (∀ act ∈ since, act.halt? = none) ∧
        ∀ idle control later, since = idle ++ .sends control :: later → ∃ act ∈ later, act.Cuts := by
  intro step state inputs
  have journal : (({} : Shell).run inputs).journal =
      [.hears (.paused (pauseAt 0)), .sends .step, .hears (.paused (pauseAt 1)), .forwards [],
        .reports (.reply (.paused (pauseAt 1))), .forwards []] ++
      [.reports (.view (.paused (pauseAt 1)))] := by
    rw [run_append, run_step, run_append, run_tellPause (by decide) rfl]
    rfl
  refine ⟨_, journal, by simp, ?_⟩
  obtain (⟨_, failed⟩ | ⟨failed, -⟩) | ⟨same, current⟩ :=
    (pause_shown_current .text .endless .answered inputs).2.2 _ _ _ journal
  · exact nomatch failed
  · exact nomatch failed
  · exact ⟨same, (current _ rfl).2⟩

/-- A step is sent and the connection ends: the pause before the step is still shown. -/
theorem pause_shown_outdated :
    let step := Input.enter .prompt (.ofString "step")
    let state := Input.enter .prompt (.ofString "state")
    let inputs := step :: tellPause 0 ++ [.event .close, .event .take, state]
    ∃ before, (({} : Shell).run inputs).journal =
        before ++ [.reports (.view (.paused (pauseAt 0)))] ∧
      ¬ ∃ earlier since, before = earlier ++ .hears (.paused (pauseAt 0)) :: since ∧
        .loses ∉ since ∧ ∀ control, .sends control ∉ since := by
  intro step state inputs
  have journal : (({} : Shell).run inputs).journal =
      [.hears (.paused (pauseAt 0)), .sends .step, .loses, .forwards [],
        .reports (.reply .disconnected), .forwards []] ++
      [.reports (.view (.paused (pauseAt 0)))] := by
    rw [run_append, run_step]
    rfl
  refine ⟨_, journal, ?_⟩
  rintro ⟨earlier, since, parts, -, unsent⟩
  cases earlier with
  | nil =>
    obtain ⟨-, rfl⟩ := List.cons.inj parts
    exact unsent .step (by simp)
  | cons _ earlier =>
    -- nothing was heard of after the first pause
    have heard := congrArg (Act.hears (.paused (pauseAt 0)) ∈ ·) (List.cons.inj parts).2
    simp at heard

end TapeLang.Shell

import TapeLang.Proofs.Execution
import TapeLang.Proofs.Execution.Release
import TapeLang.Proofs.Outputs

/-!
A run releases everything that it acquired. While a program runs, every file that it opened is on the list
of what is to be closed, and a listener is open wherever the program serves connections (`Running`). When it
has ended, however that came, the listener is closed before anything else, which answers everybody who was
registered, and then each handle is closed (`Releasing`). All of this is so in whatever order clients
connect and handlers go on.
-/
namespace TapeLang

open Source (Action Block Header)

namespace Machine

open Interleaving (Operation)

variable {m : Machine} {operation : Operation} {verdict : Except Stop (Option UInt8)}

/-- A step that needs no operation leaves the world alone, the debug session aside. -/
theorem spares_of_no_operation (none : m.operation? = none) : m.Spares m.step := by
  rcases step_world (m := m) with spares | ⟨head, action, next, phase, rest, same⟩
  · exact spares
  · have same' : m.step.world = m.world := by
      cases action with
      | switch name => simp [operation?, phase, rest] at none
      | output | input =>
        have cellless : m.tape.hasCell = false := by simpa [operation?, phase, rest] using none
        simp only [step, phase, act, rest, usesCell, cellless]
        rfl
      | moveRight | moveLeft =>
        rw [same]
        simp only [perform]
        split
        · rfl
        · exact stop_world _ _ _
      | _ =>
        rw [same]
        rfl
    exact ⟨m.world.session, same'⟩

theorem resume_world (m : Machine) (verdict : Except Stop (Option UInt8)) :
    (m.resume verdict).world = m.world := by
  unfold resume
  split
  · split
    · rfl
    · exact stop_world _ _ _
  · rfl

/-- A statement whose operation failed has ended the run. -/
theorem resume_going {head : Header} {action : Action} {next : Block}
    (rest : m.frame.rest = .act head action next) (going : (m.resume verdict).outcome? = none) :
    ∃ byte?, verdict = .ok byte? := by
  cases verdict with
  | ok byte? => exact ⟨byte?, rfl⟩
  | error reason =>
    rw [resume_stop rest] at going
    cases reason <;> simp [stop, halt, outcome?] at going

/-- Only where the network is active does a statement begin with the wait for a connection. -/
theorem network_of_serves (needs : m.operation? = some operation) (serves : operation.serves = true) :
    m.world.target = .http := by
  obtain ⟨-, -, -, -, -, -, ⟨-, begins⟩ | ⟨-, rfl⟩ | ⟨name, -, rfl⟩⟩ := operation?_eq_some needs
  · split at begins
    next network => exact network
    next => simp [begins, Operation.serves] at serves
  · simp [Operation.serves] at serves
  · simp [Operation.serves] at serves

end Machine

namespace Execution

open Interleaving
open Delivery (Manned)

/-- While a program runs, nothing is released but a listener that a switch closes. -/
structure Running (m : Machine) (control : Control) : Prop where
  /-- an operation is under way for the current statement -/
  acting : control ≠ .idle → m.phase = .ready ∧ ∃ head action next, m.frame.rest = .act head action next
  /-- a listener is open wherever the network is active -/
  manned : m.outcome? = none → control.place = .free → Manned m.world
  calm : control.releases = false
  holds : m.world.Holds

/-- Once the outcome of a run is settled, no listener is open, and each handle is closed at the end. -/
inductive Releasing (w : World) : Control → Prop where
  | underway {control : Control} (releases : control.releases = true) (unopened : w.listener = none)
      (holds : w.Holds) : Releasing w control
  | done (unopened : w.listener = none) (closed : ∀ handle ∈ w.files.handles, handle.closings = 1) :
      Releasing w .idle

/-- What every step of an execution keeps. -/
structure Kept (e : Execution) : Prop where
  sound : Sound e.system.mute
  running : e.result = none → Running e.machine e.control
  releasing : e.result ≠ none → Releasing e.machine.world e.control

variable {e f : Execution} {s t : System} {w : World}

/-! ## Between two operations -/

theorem Kept.settle (kept : Kept e) (idle : e.control = .idle) (unsettled : e.result = none)
    {v : World} {console : Console} {session : Option Debug.Session}
    (same : v = { e.machine.world with console, session }) (result : Except Fault Int) :
    Kept ({ e with result := some result }.become ({ e.system with world := v }.undertake .close)) where
  sound := by
    have settled : Sound (System.mute ⟨v, e.control, e.log⟩) :=
      kept.sound.of_mute (by rw [same]; rfl) rfl rfl
    exact settled.undertake_mute idle (by simp [Operation.serves])
  running := by simp [Execution.become]
  releasing _ := by
    refine .underway (releases_close _) rfl ?_
    have holds : v.Holds := (kept.running unsettled).holds.of_same (by rw [same]) (by rw [same])
    exact holds.of_same rfl rfl

theorem Kept.begun (kept : Kept e) (idle : e.control = .idle) (unsettled : e.result = none)
    {operation : Operation} (needs : e.machine.operation? = some operation) :
    Kept (e.become (e.system.undertake operation)) := by
  obtain ⟨phase, head, action, next, rest, -, begins⟩ := Machine.operation?_eq_some needs
  have running := kept.running unsettled
  have going : e.machine.outcome? = none := by simp [Machine.outcome?, phase]
  have manned := running.manned going (by rw [idle]; rfl)
  have going : operation ≠ .close := by
    rintro rfl
    rcases begins with ⟨-, begins⟩ | ⟨-, begins⟩ | ⟨name, -, begins⟩
    · split at begins <;> simp at begins
    · simp at begins
    · simp at begins
  refine ⟨?_, fun _ => ⟨fun _ => ⟨phase, head, action, next, rest⟩, ?_, ?_, ?_⟩, ?_⟩
  · refine kept.sound.undertake_mute idle fun serves => ?_
    exact manned (Machine.network_of_serves needs serves)
  · exact fun _ free => manned_undertake (s := e.system) manned free
  · exact releases_undertake going
  · exact holds_undertake running.holds operation
  · exact fun settled => absurd unsettled settled

theorem Kept.stepped (kept : Kept e) (idle : e.control = .idle) (unsettled : e.result = none)
    (going : e.machine.outcome? = none) (none : e.machine.operation? = none) :
    Kept { e with machine := e.machine.step } := by
  obtain ⟨session, same⟩ := Machine.spares_of_no_operation none
  have running := kept.running unsettled
  have manned := running.manned going (by rw [idle]; rfl)
  refine ⟨kept.sound.of_mute ?_ rfl rfl, fun _ => ⟨?_, ?_, running.calm, ?_⟩, ?_⟩
  · show e.machine.step.world.mute = _
    rw [same]
    rfl
  · exact fun busy => absurd idle busy
  · intro _ _
    rw [same]
    exact manned
  · rw [same]
    exact running.holds.of_same rfl rfl
  · exact fun settled => absurd unsettled settled

theorem Kept.proceed (kept : Kept e) (idle : e.control = .idle) (path : String) : Kept (e.proceed path) := by
  unfold Execution.proceed
  split
  · exact kept
  next outcome unsettled ended =>
    obtain ⟨console, session, same⟩ := Machine.settleOutcome_world e.machine.world path outcome
    exact kept.settle idle unsettled same _
  next unsettled going =>
    split
    next operation needs => exact kept.begun idle unsettled needs
    next none => exact kept.stepped idle unsettled going none

/-! ## An operation under way -/

theorem Releasing.of_busy {control : Control} (releasing : Releasing w control)
    (busy : control ≠ .idle) : control.releases = true ∧ w.listener = none ∧ w.Holds := by
  cases releasing with
  | underway releases unopened holds => exact ⟨releases, unopened, holds⟩
  | done => exact absurd rfl busy

/-- The release goes on, or it is over and each handle is closed. -/
theorem Releasing.effect (releasing : Releasing s.world s.control) (busy : s.control ≠ .idle)
    (effect : Effect s t) : Releasing t.world t.control := by
  obtain ⟨releases, unopened, holds⟩ := releasing.of_busy busy
  cases effect with
  | follows follows =>
    exact .underway (follows.releases.trans releases) unopened (holds.of_same rfl rfl)
  | ended => exact .done unopened (closed_endStep unopened holds)
  | attach control | write control | broke control | read control | enter control | seat control =>
    simp [control, Control.releases] at releases

theorem Running.going (running : Running e.machine e.control) (busy : e.control ≠ .idle) :
    e.machine.outcome? = none := by
  obtain ⟨phase, -⟩ := running.acting busy
  simp [Machine.outcome?, phase]

theorem Running.not_ending (running : Running e.machine e.control) : e.control ≠ .ending := by
  intro control
  have calm := running.calm
  simp [control, Control.releases] at calm

/-- An operation of a program goes on. -/
theorem Running.effect (running : Running e.machine e.control) (busy : e.control ≠ .idle)
    (effect : Effect e.system t) (still : t.control ≠ .idle) :
    Running (e.become t).machine t.control where
  acting _ := running.acting busy
  manned _ free :=
    effect.manned (running.manned (running.going busy)) free running.not_ending
      fun done => absurd done still
  calm := effect.calm running.calm
  holds := effect.holds running.holds running.not_ending

/-- The wait of an output is over, and it goes on with its value. -/
theorem Kept.delivers (kept : Kept e) (unsettled : e.result = none) (effect : Effect e.system t)
    (sound : Sound t.mute) (done : t.control = .idle) (control : e.control = .testing again) :
    Kept ((e.become t).become (t.undertake e.machine.delivery)) := by
  have running := kept.running unsettled
  have busy : e.control ≠ .idle := by simp [control]
  have same := effect.of_testing control
  have opened : t.world.listener ≠ none := by
    rw [same.listener]
    exact kept.sound.wired.serving (by simp [System.mute, system, control, Control.serves])
  have manned : Manned t.world := fun _ => opened
  refine ⟨sound.undertake_mute done fun _ => opened, fun _ => ⟨fun _ => running.acting busy, ?_, ?_, ?_⟩,
    fun settled => absurd unsettled settled⟩
  · exact fun _ free => manned_undertake manned free
  · refine releases_undertake ?_
    unfold Machine.delivery
    split <;> simp
  · exact holds_undertake (effect.holds running.holds running.not_ending) _

/-- The operation of a statement is over, and the machine goes on. -/
theorem Kept.resumed (kept : Kept e) (busy : e.control ≠ .idle) (unsettled : e.result = none)
    (effect : Effect e.system t) (sound : Sound t.mute) (done : t.control = .idle) :
    Kept { e.become t with machine := (e.become t).machine.resume e.system.verdict } := by
  have running := kept.running unsettled
  obtain ⟨-, head, action, next, rest⟩ := running.acting busy
  have world := Machine.resume_world (e.become t).machine e.system.verdict
  refine ⟨sound.of_mute ?_ rfl rfl, fun _ => ⟨fun busy => absurd done busy, ?_, ?_, ?_⟩,
    fun settled => absurd unsettled settled⟩
  · exact congrArg World.mute world
  · intro going free
    rw [world]
    refine effect.manned (running.manned (running.going busy)) free running.not_ending fun _ => ?_
    exact Machine.resume_going (m := (e.become t).machine) rest going
  · exact effect.calm running.calm
  · rw [world]
    exact effect.holds running.holds running.not_ending

/-- A step of the interpreter misuses no group. -/
theorem Kept.interpret (kept : Kept e) (path : String) : ∃ f, e.interpret path = .ok f ∧ Kept f := by
  by_cases idle : e.control = .idle
  · exact ⟨e.proceed path, by simp only [Execution.interpret, idle, ↓reduceIte], kept.proceed idle path⟩
  obtain ⟨t, interpreted, sound⟩ := kept.sound.interpret_mute
  have effect := effect_of_interpret interpreted
  refine ⟨if t.control = .idle then (e.become t).goOn e.system else e.become t, ?_, ?_⟩
  · simp only [Execution.interpret, idle, ↓reduceIte, interpreted]
    rfl
  have releasing : e.result ≠ none → Releasing t.world t.control :=
    fun settled => (kept.releasing settled).effect idle effect
  split
  next done =>
    unfold Execution.goOn
    by_cases settled : e.result = none
    · rw [if_neg (by simp [become, settled])]
      split
      next control => exact kept.delivers settled effect sound done control
      next => exact kept.resumed idle settled effect sound done
    · rw [if_pos (show (e.become t).result.isSome = true from Option.isSome_iff_ne_none.mpr settled)]
      exact ⟨sound, fun unsettled => absurd unsettled settled, releasing⟩
  next still =>
    exact ⟨sound, fun unsettled => (kept.running unsettled).effect idle effect still, releasing⟩

/-! ## Whole executions -/

/-- What happens beside the interpreter leaves the routing and the files. -/
theorem Kept.beside (kept : Kept e) (sound : Sound t.mute) (control : t.control = e.control)
    (routing : SameRouting e.machine.world t.world) (files : t.world.files = e.machine.world.files)
    (opened : t.world.opened = e.machine.world.opened) : Kept (e.become t) := by
  refine ⟨sound, fun unsettled => ?_, fun settled => ?_⟩
  · have running := kept.running unsettled
    refine ⟨fun busy => running.acting (control ▸ busy), fun going free => ?_, ?_, ?_⟩
    · have manned := running.manned going (control ▸ free)
      unfold Manned at manned ⊢
      exact routing.listener ▸ routing.target ▸ manned
    · exact (congrArg Control.releases control).trans running.calm
    · exact running.holds.of_same files opened
  · have releasing := kept.releasing settled
    show Releasing t.world t.control
    rw [control]
    generalize e.control = now at releasing
    cases releasing with
    | underway releases unopened holds =>
      exact .underway releases (routing.listener.trans unopened) (holds.of_same files opened)
    | done unopened closed =>
      exact .done (routing.listener.trans unopened) (files ▸ closed)

theorem Kept.step (kept : Kept e) (path : String) (action : Action) :
    ∃ f, e.step path action = .ok f ∧ Kept f := by
  cases action with
  | interpret => exact kept.interpret path
  | arrive listener body =>
    exact ⟨_, rfl, kept.beside (kept.sound.arrive listener body) rfl ⟨rfl, rfl, rfl⟩ rfl rfl⟩
  | handle id =>
    obtain ⟨t, handled, sound⟩ := kept.sound.handle_mute id
    obtain ⟨world, control⟩ := handle_same handled
    refine ⟨e.become t, by simp only [Execution.step, handled]; rfl, ?_⟩
    refine kept.beside sound control ?_ ?_ ?_ <;> rw [world]
    · exact ⟨rfl, rfl, rfl⟩
    · rfl
    · rfl
  | others console session =>
    exact ⟨_, rfl, kept.beside (kept.sound.of_mute rfl rfl rfl) rfl ⟨rfl, rfl, rfl⟩ rfl rfl⟩

theorem Kept.run (kept : Kept e) (path : String) (actions : List Action) :
    ∃ f, e.run path actions = .ok f ∧ Kept f := by
  induction actions generalizing e with
  | nil => exact ⟨e, rfl, kept⟩
  | cons action later ih =>
    obtain ⟨f, stepped, kept⟩ := kept.step path action
    obtain ⟨g, ran, kept⟩ := ih kept
    refine ⟨g, ?_, kept⟩
    simp only [Execution.run, List.foldlM_cons, stepped]
    exact ran

theorem Kept.leads (kept : Kept e) (leads : e.Leads path f) : Kept f := by
  obtain ⟨actions, ran⟩ := leads
  obtain ⟨f', ran', kept'⟩ := kept.run path actions
  obtain rfl := Except.ok.inj (ran.symm.trans ran')
  exact kept'

theorem kept_start (program : Block) (tape : Tape) (console : Console)
    (session : Option Debug.Session) (nodes : List (Host.Location × Host.Node)) (config : Config) :
    Kept (.start program tape console session nodes config) where
  sound := sound_initial
  running _ :=
    { acting := fun busy => absurd rfl busy
      manned := fun _ _ network => Source.Target.noConfusion network
      calm := rfl
      holds := ⟨rfl, rfl⟩ }
  releasing settled := absurd rfl settled

theorem Kept.released (kept : Kept e) (done : e.isOver = true) : Released e.system := by
  obtain ⟨settled, idle⟩ : e.result ≠ none ∧ e.control = .idle := by
    simpa [isOver, Option.isSome_iff_ne_none] using done
  have releasing := kept.releasing settled
  rw [idle] at releasing
  cases releasing with
  | underway releases => simp [Control.releases] at releases
  | done unopened closed =>
    obtain ⟨handles, unopened, closed, answered, program, connection⟩ :=
      kept.sound.released idle unopened closed
    exact ⟨handles, unopened, closed, answered, program, connection⟩

/-! ## The way to the end -/

/-- Once a program has ended, its outcome is settled between two operations. -/
theorem Kept.unsettled_idle (kept : Kept e) (unsettled : e.result = none)
    (ended : e.machine.outcome? = some outcome) : e.control = .idle := by
  by_contra busy
  have going := (kept.running unsettled).going busy
  simp [ended] at going

/-- What is left of a run that has ended: its outcome is to be settled, or the release goes on. -/
def IsNearer (f e : Execution) : Prop :=
  f.result ≠ none ∧ (e.result = none ∨ Nearer f.control e.control)

/-- Once a program has ended, each step of the interpreter brings the end of the run closer, unless a
response is pending. -/
theorem Kept.nearer (kept : Kept e) (path : String) (ended : e.machine.outcome? = some outcome)
    (left : e.isOver = false) :
    ∃ f, e.interpret path = .ok f ∧ f.machine.outcome? = some outcome ∧
      (f.IsNearer e ∨ e.system.AwaitsResponses) := by
  cases unsettled : e.result with
  | none =>
    have idle := kept.unsettled_idle unsettled ended
    refine ⟨e.proceed path, by simp only [Execution.interpret, idle, ↓reduceIte], ?_, .inl ⟨?_, .inl ?_⟩⟩
    · simp only [Execution.proceed, unsettled, ended]
      exact ended
    · simp only [Execution.proceed, unsettled, ended]
      simp [become]
    · exact unsettled
  | some result =>
    have settled : e.result ≠ none := by simp [unsettled]
    have busy : e.control ≠ .idle := by simpa [isOver, unsettled] using left
    obtain ⟨releases, -⟩ := (kept.releasing settled).of_busy busy
    obtain ⟨t, interpreted, -⟩ := kept.sound.interpret_mute
    have stays : (if t.control = .idle then (e.become t).goOn e.system else e.become t) = e.become t := by
      split
      · exact goOn_settled (e := e.become t) (Option.isSome_iff_ne_none.mpr settled) e.system
      · rfl
    refine ⟨e.become t, ?_, ended, ?_⟩
    · simp only [Execution.interpret, busy, ↓reduceIte, interpreted]
      exact congrArg Except.ok stays
    · exact (kept.sound.nearer releases interpreted).imp_left fun nearer => ⟨settled, .inr nearer⟩

/-- The steps that are left to the interpreter, with room for the settling of the outcome. -/
def remaining (e : Execution) : Nat × Nat :=
  if e.result = none then (7, 0) else e.control.left

theorem left_lt (control : Control) : Prod.Lex (· < ·) (· < ·) control.left (7, 0) := by
  cases control <;> exact .left _ _ (by decide)

theorem IsNearer.remaining_lt (nearer : f.IsNearer e) :
    Prod.Lex (· < ·) (· < ·) f.remaining e.remaining := by
  obtain ⟨settled, nearer⟩ := nearer
  by_cases unsettled : e.result = none
  · simp only [remaining, settled, unsettled, ↓reduceIte]
    exact left_lt f.control
  · simp only [remaining, settled, unsettled, ↓reduceIte]
    exact nearer.resolve_left unsettled

/-- There is an end to come closer to. -/
theorem wellFounded_isNearer : WellFounded IsNearer :=
  Subrelation.wf IsNearer.remaining_lt (InvImage.wf remaining (Prod.lex Nat.lt_wfRel Nat.lt_wfRel).wf)

/-- Handlers that go as far as they can leave a close nothing to wait for. -/
theorem Kept.unblocked (kept : Kept e) (path : String) (awaits : e.system.AwaitsResponses) :
    ∃ f, e.Leads path f ∧ f.result = e.result ∧ f.control = e.control ∧
      f.machine.outcome? = e.machine.outcome? ∧ ¬ f.system.AwaitsResponses := by
  obtain ⟨⟨listener, purpose, control⟩, -⟩ := awaits
  obtain ⟨t, settled, -, answered⟩ := kept.sound.reachable.settle
  have settled : e.machine.world.traffic.settle = .ok t.world.traffic := settled
  obtain ⟨log, serving⟩ := serves_settle settled e.machine.world e.control e.log
  refine ⟨_, leads_of_advances path serving, rfl, rfl, rfl, ?_⟩
  rintro ⟨-, pending⟩
  have answered : unanswered t.world.traffic = 0 := answered listener purpose control
  exact Nat.ne_of_gt pending answered

/-- Once a program has ended, its run can return. -/
theorem Kept.returns (kept : Kept e) (path : String) (ended : e.machine.outcome? = some outcome) :
    ∃ f, e.Leads path f ∧ f.isOver = true := by
  induction e using wellFounded_isNearer.induction with
  | _ e ih =>
    cases left : e.isOver with
    | true => exact ⟨e, .refl e, left⟩
    | false =>
      obtain ⟨d, leads, result, control, same, unblocked⟩ : ∃ d, e.Leads path d ∧ d.result = e.result ∧
          d.control = e.control ∧ d.machine.outcome? = e.machine.outcome? ∧
            ¬ d.system.AwaitsResponses := by
        by_cases awaits : e.system.AwaitsResponses
        · exact kept.unblocked path awaits
        · exact ⟨e, .refl e, rfl, rfl, rfl, awaits⟩
      have left : d.isOver = false := by
        rw [isOver, result, control]
        exact left
      obtain ⟨f, interpreted, ended', nearer | awaits⟩ :=
        (kept.leads leads).nearer path (same.trans ended) left
      · have further : e.Leads path f := leads.trans (leads_once .interpret interpreted)
        have nearer : f.IsNearer e := by
          unfold IsNearer at nearer ⊢
          rwa [result, control] at nearer
        obtain ⟨g, returned, done⟩ := ih f nearer (kept.leads further) ended'
        exact ⟨g, further.trans returned, done⟩
      · exact absurd awaits unblocked

/-- A run releases everything that it acquired. Whatever the program, its tape, the console, the files
and the configuration are, and in whatever order the interpreter and the handlers take their steps while
clients connect to any listener and the streams of the console and the debug session change, no step is at
fault. Once the program has ended, in whatever way, the run can return: each step of the interpreter brings
its end closer, unless it waits for a pending response. When the run has returned, each file handle has been
closed once, no listener is open, every connection that was registered has got one reply, and nothing holds
the program or awaits a connection. -/
theorem releases_everything (program : Block) (tape : Tape) (console : Console)
    (session : Option Debug.Session) (nodes : List (Host.Location × Host.Node)) (config : Config)
    (path : String) (actions : List Action) :
    ∃ e, (start program tape console session nodes config).run path actions = .ok e ∧
      (∀ outcome, e.machine.outcome? = some outcome →
        (∃ later f, e.run path later = .ok f ∧ f.isOver = true) ∧
        (e.isOver = false → ∃ f, e.interpret path = .ok f ∧ f.machine.outcome? = some outcome ∧
          (f.IsNearer e ∨ e.system.AwaitsResponses))) ∧
      (e.isOver = true → Released e.system) := by
  obtain ⟨e, ran, kept⟩ := (kept_start program tape console session nodes config).run path actions
  refine ⟨e, ran, fun outcome ended => ⟨?_, kept.nearer path ended⟩, kept.released⟩
  obtain ⟨f, ⟨later, ran⟩, done⟩ := kept.returns path ended
  exact ⟨later, f, ran, done⟩

/-! ## A run that fails after it has opened a file and a listener -/

theorem openShared_single : Host.Files.openShared {} "f" =
    .ok ({ nodes := [(["f"], .file #[])], handles := #[{ location := ["f"] }] }, 0) := by
  have split : "f".splitOn "/" = ["f"] := by
    unfold String.splitOn
    rw [if_neg (by decide)]
    unfold String.splitOnAux
    rw [if_neg (by decide)]
    dsimp only
    rw [if_neg (by decide)]
    unfold String.splitOnAux
    rw [if_pos (by decide)]
    decide +kernel
  have names : Host.Files.names "f" = (["f"], false) := by
    unfold Host.Files.names
    rw [split]
    decide +kernel
  have located : Host.Files.locate {} "f" = .ok (["f"], false) := by
    unfold Host.Files.locate
    rw [names]
    decide +kernel
  unfold Host.Files.openShared
  rw [located]
  rfl

/-- A program that opens a file and a listener, outputs a byte, and fails at a target that nothing has the
name of. -/
def failing : Block :=
  .act ⟨⟨1, 1⟩, false⟩ (.switch "file") <| .act ⟨⟨2, 1⟩, false⟩ (.switch "http") <|
    .act ⟨⟨3, 1⟩, false⟩ .increment <| .act ⟨⟨4, 1⟩, false⟩ .output <|
    .act ⟨⟨5, 1⟩, false⟩ (.switch "nowhere") .nil

theorem run_interpret {path : String} (taken : e.interpret path = .ok f) (later : List Action) :
    e.run path (.interpret :: later) = f.run path later := by
  simp only [run, List.foldlM_cons, Execution.step, taken]
  rfl

/-- The program about to open its file. -/
def opening : Execution where
  machine := { Machine.start failing ⟨#[0], 0⟩ { config := { filePath := "f" } } with phase := .ready }
  control := .entering "file"

/-- The program after it has opened its file. -/
def opened : Execution where
  machine :=
    { opening.machine with
      frame := opening.machine.frame.past
        (.act ⟨⟨2, 1⟩, false⟩ (.switch "http") <| .act ⟨⟨3, 1⟩, false⟩ .increment <|
          .act ⟨⟨4, 1⟩, false⟩ .output <| .act ⟨⟨5, 1⟩, false⟩ (.switch "nowhere") .nil)
      phase := .arriving
      world := { opening.machine.world with
        files := { nodes := [(["f"], .file #[])], handles := #[{ location := ["f"] }] }
        target := .file, endpoints := [.file 0], opened := [0] } }

theorem interpret_opening : opening.interpret "p" = .ok opened := by
  have entered : opening.machine.world.enter "file" = (opened.machine.world, .ok ()) := by
    show opening.machine.world.openFile = _
    have found : opening.machine.world.files.openShared opening.machine.world.config.filePath = _ :=
      openShared_single
    unfold World.openFile
    rw [found]
    rfl
  have stepped : opening.system.interpret = .ok ⟨opened.machine.world, .idle, []⟩ := by
    show Except.ok (System.mk opening.machine.world.openFile.1 .idle []) = _
    exact congrArg (fun world => Except.ok (System.mk world .idle [])) (congrArg Prod.fst entered)
  have verdict : opening.system.verdict = .ok none := by
    show (opening.machine.world.enter "file").2.map _ = _
    rw [entered]
    rfl
  unfold Execution.interpret
  rw [if_neg Control.noConfusion, stepped]
  have resumed : (opening.become ⟨opened.machine.world, .idle, []⟩).goOn opening.system = opened := by
    refine (if_neg Bool.false_ne_true).trans ?_
    show Execution.mk (Machine.resume _ opening.system.verdict) _ _ _ = _
    rw [verdict]
    rfl
  exact congrArg Except.ok resumed

/-- A client connects before the output, and gets the byte when the switch closes the listener. -/
def serving : List Action :=
  List.replicate 9 .interpret ++ .arrive 0 [] :: List.replicate 3 (.handle 0) ++
    List.replicate 14 .interpret ++ List.replicate 3 (.handle 0) ++ List.replicate 7 .interpret

theorem serving_ran : (opened.run "p" serving).toOption.map (fun e =>
    (e.isOver, e.machine.world.files.handles.size, decide (.registered 0 ∈ e.log))) =
      some (true, 1, true) := by
  decide +kernel

/-- The program fails after it has opened a file and served a client, and both are released. -/
theorem releases_everything_failing : ∃ e,
    (start failing ⟨#[0], 0⟩ {} none [] { filePath := "f" }).run "p"
      (.interpret :: .interpret :: .interpret :: serving) = .ok e ∧
    e.isOver = true ∧ e.machine.world.files.handles.size = 1 ∧ .registered 0 ∈ e.log ∧
    Released e.system := by
  obtain ⟨e, ran, -, released⟩ := releases_everything failing ⟨#[0], 0⟩ {} none [] { filePath := "f" }
    "p" (.interpret :: .interpret :: .interpret :: serving)
  have looked : (start failing ⟨#[0], 0⟩ {} none [] { filePath := "f" }).interpret "p" =
    .ok { opening with control := .idle } := rfl
  have begun : ({ opening with control := .idle } : Execution).interpret "p" = .ok opening := rfl
  have facts := serving_ran
  rw [← run_interpret interpret_opening, ← run_interpret begun, ← run_interpret looked, ran] at facts
  simp only [Except.toOption, Option.map_some, Option.some.injEq, Prod.mk.injEq, decide_eq_true_eq]
    at facts
  obtain ⟨done, handles, registered⟩ := facts
  exact ⟨e, ran, done, handles, registered, released done⟩

end Execution
end TapeLang

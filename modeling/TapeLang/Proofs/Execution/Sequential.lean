import TapeLang.Proofs.Delivery.Effects
import TapeLang.Proofs.Releasing

/-!
Runs in which nobody gets in between while a statement acts. The machine takes a step, a client connects
and its handler goes as far as it can, or the streams change (`Turn`). Every such run is an execution, and
so is its end (`run_leads`), so what holds of executions holds of the machine by itself; where it ends,
everything that it acquired is released (`conclude_releases`).
-/
namespace TapeLang

open Interleaving
open Delivery (Tidy drain_cases)

namespace Sequential

/-- Who acts. -/
inductive Turn where
  /-- the machine takes a step, unless it has ended or waits -/
  | step
  | connect (body : List UInt8)
  /-- the streams of the console and the debug session become others -/
  | others (console : Console) (session : Option Debug.Session)

def turn (m : Machine) : Turn → Except WaitFault Machine
  | .step => .ok (if m.isDone then m else m.step)
  | .connect body => (m.world.connect body).map fun world => { m with world }
  | .others console session => .ok { m with world := { m.world with console, session } }

/-- Turns one after the other. -/
def run (m : Machine) (turns : List Turn) : Except WaitFault Machine := turns.foldlM turn m

/-- A machine that nobody comes to is stepped until it has ended or waits. -/
theorem run_steps (m : Machine) (bound : Nat) :
    run m (List.replicate bound .step) = .ok (m.run bound) := by
  induction bound generalizing m with
  | zero => rfl
  | succ bound ih =>
    have first : run m (List.replicate (bound + 1) .step) =
        run (if m.isDone then m else m.step) (List.replicate bound .step) := rfl
    rw [first, ih, Machine.run]
    split
    next done => exact congrArg Except.ok (by cases bound <;> simp [Machine.run, done])
    next => rfl

end Sequential

/-! ## Operations that go through at once -/

namespace Delivery

variable {w v : World} {operation : Operation} {verdict : Except Stop (Option UInt8)}

theorem Tidy.closable (tidy : Tidy w) (listener : Nat) (opened : w.listener = some listener) :
    Closable w.traffic listener := by
  obtain ⟨log, reachable⟩ := tidy.reachable
  exact reachable.closable (w := w.mute) opened

/-- What an operation that goes through at once comes to is one of the things that it may come to. -/
theorem Tidy.completes (tidy : Tidy w) (carries : w.Carries operation v verdict)
    (log : List Interleaving.Event) :
    Tidy v ∧ ∃ log', Completes (System.undertake ⟨w, .idle, log⟩ operation) ⟨v, .idle, log'⟩ verdict := by
  obtain ⟨_, _, _, counts⟩ := tidy.counts
  cases carries with
  | broadcast value => exact ⟨(tidy.broadcast value).1, completes_broadcast w value log⟩
  | read => exact ⟨tidy.read.1, log, completes_read w log⟩
  | finishCycle done =>
    obtain ⟨v, cycled, tidy', -⟩ := tidy.finishCycle
    obtain rfl := Except.ok.inj (done.symm.trans cycled)
    exact ⟨tidy', completes_finishCycle counts done log⟩
  | switch name => exact ⟨(tidy.switch name).1, (completes_switch counts tidy.closable name log).2⟩

theorem Tidy.completes_close (tidy : Tidy w) (log : List Interleaving.Event) :
    w.close.2 = .ok () ∧
      ∃ log', Completes (System.undertake ⟨w, .idle, log⟩ .close) ⟨w.close.1, .idle, log'⟩ (.ok none) := by
  obtain ⟨_, reachable⟩ := tidy.reachable
  obtain ⟨_, _, counts⟩ := reachable.unheld
  rw [World.mute_closeListener] at counts
  exact Interleaving.completes_close tidy.closable counts log

/-- A delivery goes through at once. -/
theorem Tidy.carries_delivery (tidy : Tidy w) (m : Machine) :
    ∃ v verdict, w.Carries m.delivery v verdict := by
  unfold Machine.delivery
  split
  · obtain ⟨v, cycled, -⟩ := tidy.finishCycle
    exact ⟨v, _, .finishCycle cycled⟩
  · exact ⟨_, _, .broadcast _⟩

/-- The interpreter that waits takes up its wait where the release of the group lets it. -/
theorem awaits_woken (counts : w.traffic.waiters = .counts p 0 rest) (log : List Interleaving.Event) :
    ∃ v found, w.awaitConnection = .ok (v, found) ∧ AwaitsFrom ⟨w, .waiting, log⟩ v found log := by
  have released : w.traffic.waiters.isReleased Waiters.connection = .ok true := by
    rw [counts]
    rfl
  by_cases nobody : w.drain.endpoints = []
  · obtain ⟨traffic, rearmed, armed, again⟩ := advances_again nobody counts log
    obtain ⟨found, ran, awaits⟩ := awaits_armed (w := { w.drain with traffic }) armed 0 log
    refine ⟨_, found, (awaitRounds_released nobody released rearmed 1).trans ran, ?_⟩
    have waiting := (advances_wake released log).trans again
    cases found with
    | true => exact Attaches.after awaits waiting
    | false => exact ⟨waiting.trans awaits.1, awaits.2⟩
  · exact ⟨w.drain, true, awaitRounds_attached nobody 1,
      (attaches_drain nobody true log).after (advances_wake released log)⟩

end Delivery

namespace Execution

variable {e f g : Execution} {s t : System} {w v : World} {path : String}
  {verdict : Except Stop (Option UInt8)}

/-! ## Where the machine stands -/

/-- The program is between two operations, or it waits for a connection that nobody has made. -/
structure Resting (e : Execution) : Prop where
  kept : Kept e
  unsettled : e.result = none
  tidy : Tidy e.machine.world
  rests : e.control = .idle ∨ e.control = .waiting ∧
    e.machine.operation? = some .awaitConnection ∧ e.machine.world.endpoints = []

theorem operation?_of_target {m : Machine} (same : w.target = m.world.target) :
    Machine.operation? { m with world := w } = m.operation? := by
  unfold Machine.operation?
  rw [same]

theorem system_of_control {control : Control} (stands : e.control = control) :
    e.system = ⟨e.machine.world, control, e.log⟩ := by
  rw [system, stands]

/-- An operation that goes through at once ends its statement. -/
theorem resting_of_carries (path : String) (kept : Kept e) (unsettled : e.result = none)
    {operation : Operation} {log : List Interleaving.Event}
    (begun : e.system = System.undertake ⟨w, .idle, log⟩ operation) (tidy : Tidy w)
    (carries : w.Carries operation v verdict) :
    ∃ f, e.Leads path f ∧ Resting f ∧ f.machine = { e.machine with world := v }.resume verdict := by
  obtain ⟨tidy', log', completes⟩ := tidy.completes carries log
  rw [← begun] at completes
  have leads := leads_of_completes path unsettled completes
  refine ⟨_, leads, ⟨kept.leads leads, unsettled, ?_, .inl rfl⟩, rfl⟩
  rw [Machine.resume_world]
  exact tidy'

/-- A wait for a connection, from its beginning or from where it was left, ends with a delivery or is
left again. -/
theorem resting_of_awaits (path : String) (kept : Kept e) (unsettled : e.result = none)
    (tidy : Tidy e.machine.world) (needs : e.machine.operation? = some .awaitConnection) {found : Bool}
    (ran : e.machine.world.awaitConnection = .ok (v, found)) {log : List Interleaving.Event}
    (awaits : AwaitsFrom e.system v found log) :
    ∃ f, e.Leads path f ∧ Resting f ∧ f.machine = e.machine.step := by
  obtain ⟨v', ran', tidy', -, -, elsewhere⟩ := tidy.awaitConnection
  obtain ⟨rfl, rfl⟩ := Prod.mk.inj (Except.ok.inj (ran.symm.trans ran'))
  cases somebody : !v.endpoints.isEmpty with
  | true =>
    rw [somebody] at awaits ran
    have leads := leads_of_attaches path unsettled awaits
    obtain ⟨u, verdict, carries⟩ := tidy'.carries_delivery e.machine
    obtain ⟨f, further, resting, machine⟩ :=
      resting_of_carries path (kept.leads leads) unsettled rfl tidy' carries
    exact ⟨f, leads.trans further, resting,
      machine.trans (Machine.step_of_attached needs ran carries).symm⟩
  | false =>
    rw [somebody] at awaits ran
    have leads := leads_of_advances path awaits.1
    have target : v.target = e.machine.world.target := by rw [elsewhere]
    have nobody : v.endpoints = [] := by simpa using somebody
    exact ⟨_, leads, ⟨kept.leads leads, unsettled, tidy',
      .inr ⟨rfl, (operation?_of_target target).trans needs, nobody⟩⟩,
      (Machine.step_of_unattached needs ran).symm⟩

/-! ## Steps of the machine -/

theorem Resting.step_quietly (resting : Resting e) (idle : e.control = .idle)
    (unended : e.machine.outcome? = none) (quiet : e.machine.operation? = none) (path : String) :
    ∃ f, e.Leads path f ∧ Resting f ∧ f.machine = e.machine.step := by
  have proceeds := leads_proceed idle path
  have same : e.proceed path = { e with machine := e.machine.step } := by
    simp only [proceed, resting.unsettled, unended, quiet]
  rw [same] at proceeds
  obtain ⟨session, world⟩ := Machine.spares_of_no_operation quiet
  exact ⟨_, proceeds, ⟨resting.kept.leads proceeds, resting.unsettled,
    resting.tidy.of_mute (by rw [world]; rfl), .inl idle⟩, rfl⟩

theorem Resting.step_acting (resting : Resting e) (idle : e.control = .idle)
    (unended : e.machine.outcome? = none) {operation : Operation}
    (needs : e.machine.operation? = some operation) (path : String) :
    ∃ f, e.Leads path f ∧ Resting f ∧ f.machine = e.machine.step := by
  have proceeds := leads_proceed idle path
  have same : e.proceed path = e.become (e.system.undertake operation) := by
    simp only [proceed, resting.unsettled, unended, needs]
  rw [same, system_of_control idle] at proceeds
  have kept := resting.kept.leads proceeds
  by_cases awaiting : operation = .awaitConnection
  · subst awaiting
    obtain ⟨_, _, _, counts⟩ := resting.tidy.counts
    obtain ⟨v, found, ran, awaits⟩ := awaits_connection counts e.log
    obtain ⟨f, leads, resting', machine⟩ :=
      resting_of_awaits path kept resting.unsettled resting.tidy needs ran awaits
    exact ⟨f, proceeds.trans leads, resting', machine⟩
  · obtain ⟨v, verdict, carries⟩ := Machine.carries_operation needs awaiting
    obtain ⟨f, leads, resting', machine⟩ :=
      resting_of_carries path kept resting.unsettled rfl resting.tidy carries
    exact ⟨f, proceeds.trans leads, resting',
      machine.trans (Machine.step_of_operation needs carries).symm⟩

/-- Nobody is in the inbox while a wait is blocked, as no handler is about to release it. -/
theorem Resting.nobody (resting : Resting e) (waiting : e.control = .waiting)
    (nobody : e.machine.world.endpoints = [])
    (armed : e.machine.world.traffic.waiters.isReleased Waiters.connection = .ok false) :
    e.machine.world.drain.endpoints = [] := by
  by_contra attached
  obtain ⟨-, same⟩ | ⟨id, l, opened, found, inbox, full, -⟩ := drain_cases e.machine.world
  · exact attached (by rw [same]; exact nobody)
  · obtain ⟨first, later, queued⟩ := List.exists_cons_of_ne_nil full
    have heedless : e.system.mute.control.isHeedless = true := by
      simp [System.mute, system, waiting, Control.isHeedless]
    have owed := resting.kept.sound.reachable.awaited heedless armed
    have member : first ∈ System.inbox e.system.mute := by
      show first ∈ Delivery.queue e.machine.world
      rw [inbox, queued]
      exact List.mem_cons_self
    obtain ⟨c, known, releasing⟩ := owed first member
    obtain ⟨waits, -⟩ | ⟨gone, -⟩ := resting.tidy.settled first c known
    · simp [waits] at releasing
    · simp [gone] at releasing

/-- A wait that the machine need not keep up has been released. -/
theorem Resting.released (resting : Resting e) (waiting : e.control = .waiting)
    (needs : e.machine.operation? = some .awaitConnection) (nobody : e.machine.world.endpoints = [])
    (unheld : e.machine.waits = false)
    (counts : e.machine.world.traffic.waiters = .counts p armed rest) : armed = 0 := by
  by_contra pending
  have blocked : e.machine.world.traffic.waiters.isReleased Waiters.connection = .ok false := by
    rw [counts, Waiters.counts_isReleased_connection]
    simpa using pending
  have empty := resting.nobody waiting nobody blocked
  obtain ⟨phase, head, action, next, rest, -, ⟨rfl, begins⟩ | ⟨-, begins⟩ | ⟨name, -, begins⟩⟩ :=
    Machine.operation?_eq_some needs
  · split at begins
    next network =>
      simp [Machine.waits, Machine.awaitsConnection, phase, rest, network, empty, blocked,
        Except.toOption] at unheld
    · simp at begins
  · simp at begins
  · simp at begins

/-- Where the machine does not wait, a step of it is an execution. -/
theorem Resting.step (resting : Resting e) (going : e.machine.isDone = false) (path : String) :
    ∃ f, e.Leads path f ∧ Resting f ∧ f.machine = e.machine.step := by
  obtain ⟨unended, unheld⟩ : e.machine.outcome? = none ∧ e.machine.waits = false := by
    simpa [Machine.isDone] using going
  obtain idle | ⟨waiting, needs, nobody⟩ := resting.rests
  · cases needs : e.machine.operation? with
    | none => exact resting.step_quietly idle unended needs path
    | some operation => exact resting.step_acting idle unended needs path
  · obtain ⟨_, armed, _, counts⟩ := resting.tidy.counts
    obtain rfl := resting.released waiting needs nobody unheld counts
    obtain ⟨v, found, ran, awaits⟩ := Delivery.awaits_woken counts e.log
    rw [← system_of_control waiting] at awaits
    exact resting_of_awaits path resting.kept resting.unsettled resting.tidy needs ran awaits

/-! ## Others -/

/-- Whoever else acts leaves the program where it is. -/
theorem Resting.rests_of (resting : Resting e) (target : w.target = e.machine.world.target)
    (endpoints : w.endpoints = e.machine.world.endpoints) :
    e.control = .idle ∨ e.control = .waiting ∧
      Machine.operation? { e.machine with world := w } = some .awaitConnection ∧ w.endpoints = [] := by
  obtain idle | ⟨waiting, needs, nobody⟩ := resting.rests
  · exact .inl idle
  · exact .inr ⟨waiting, (operation?_of_target target).trans needs, endpoints.trans nobody⟩

theorem Resting.connect (resting : Resting e) (body : List UInt8) (path : String) :
    ∃ v f, e.machine.world.connect body = .ok v ∧ e.Leads path f ∧ Resting f ∧
      f.machine = { e.machine with world := v } := by
  cases opened : e.machine.world.listener with
  | none => exact ⟨_, e, Delivery.connect_unopened opened body, .refl e, resting, rfl⟩
  | some listener =>
    obtain ⟨v, connected, tidy, -, endpoints, -⟩ := resting.tidy.connect opened body
    obtain ⟨traffic, settled, elsewhere⟩ : ∃ traffic,
        (e.machine.world.traffic.arrive listener body).settle = .ok traffic ∧
          v = { e.machine.world with traffic } := by
      have connected' := connected
      simp only [World.connect, opened] at connected'
      obtain ⟨traffic, settled, same⟩ := ok_of_bind_ok connected'
      rw [← opened] at same
      exact ⟨traffic, settled, (Except.ok.inj same).symm⟩
    subst elsewhere
    have arrived : e.Leads path
        (e.become (e.system.setTraffic (e.machine.world.traffic.arrive listener body))) :=
      leads_once (.arrive listener body) rfl
    obtain ⟨log, serving⟩ := serves_settle settled e.machine.world e.control e.log
    have leads := arrived.trans (leads_of_advances path serving)
    exact ⟨_, _, connected, leads,
      ⟨resting.kept.leads leads, resting.unsettled, tidy, resting.rests_of rfl rfl⟩, rfl⟩

theorem Resting.others (resting : Resting e) (console : Console) (session : Option Debug.Session)
    (path : String) :
    ∃ f, e.Leads path f ∧ Resting f ∧
      f.machine = { e.machine with world := { e.machine.world with console, session } } := by
  have leads : e.Leads path
      (e.become { e.system with world := { e.machine.world with console, session } }) :=
    leads_once (.others console session) rfl
  exact ⟨_, leads, ⟨resting.kept.leads leads, resting.unsettled, resting.tidy.of_mute rfl,
    resting.rests_of rfl rfl⟩, rfl⟩

/-! ## Whole runs -/

theorem Resting.turn (resting : Resting e) (turn : Sequential.Turn) (path : String) :
    ∃ f, Sequential.turn e.machine turn = .ok f.machine ∧ e.Leads path f ∧ Resting f := by
  cases turn with
  | step =>
    cases done : e.machine.isDone with
    | true => exact ⟨e, by simp [Sequential.turn, done], .refl e, resting⟩
    | false =>
      obtain ⟨f, leads, resting', machine⟩ := resting.step done path
      exact ⟨f, by simp [Sequential.turn, done, machine], leads, resting'⟩
  | connect body =>
    obtain ⟨v, f, connected, leads, resting', machine⟩ := resting.connect body path
    refine ⟨f, ?_, leads, resting'⟩
    simp only [Sequential.turn, connected, machine]
    rfl
  | others console session =>
    obtain ⟨f, leads, resting', machine⟩ := resting.others console session path
    exact ⟨f, congrArg Except.ok machine.symm, leads, resting'⟩

theorem Resting.run (resting : Resting e) (turns : List Sequential.Turn) (path : String) :
    ∃ f, Sequential.run e.machine turns = .ok f.machine ∧ e.Leads path f ∧ Resting f := by
  induction turns generalizing e with
  | nil => exact ⟨e, rfl, .refl e, resting⟩
  | cons turn later ih =>
    obtain ⟨f, turned, leads, resting⟩ := resting.turn turn path
    obtain ⟨g, ran, further, resting⟩ := ih resting
    refine ⟨g, ?_, leads.trans further, resting⟩
    simp only [Sequential.run, List.foldlM_cons, turned]
    exact ran

/-- The end of a run, with the report of a failure and the release of everything, is an execution. -/
theorem Resting.conclude (resting : Resting e) {outcome : Outcome}
    (ended : e.machine.outcome? = some outcome) (path : String) :
    ∃ f, e.Leads path f ∧ f.isOver = true ∧
      f.machine.world = (e.machine.conclude path outcome).1 ∧
      f.result = some (e.machine.conclude path outcome).2 := by
  have idle := resting.kept.unsettled_idle resting.unsettled ended
  let w := (Machine.settleOutcome e.machine.world path outcome).1
  let result := (Machine.settleOutcome e.machine.world path outcome).2
  obtain ⟨console, session, same⟩ := Machine.settleOutcome_world e.machine.world path outcome
  have tidy : Tidy w := by
    refine resting.tidy.of_mute ?_
    show (Machine.settleOutcome e.machine.world path outcome).1.mute = _
    rw [same]
    rfl
  have begun : e.proceed path = { e with result := some result }.become
      (System.undertake ⟨w, .idle, e.log⟩ .close) := by
    have stands : { e.system with world := w } = ⟨w, .idle, e.log⟩ := by rw [system, idle]
    simp only [proceed, resting.unsettled, ended]
    exact congrArg (fun s => Execution.become _ (System.undertake s .close)) stands
  obtain ⟨closed, log, completes⟩ := tidy.completes_close e.log
  have concluded : e.machine.conclude path outcome = (w.close.1, result) := by
    have closed : w.close = (w.close.1, .ok ()) := Prod.ext rfl closed
    show w.release result = _
    unfold World.release
    rw [closed]
  rw [concluded]
  have proceeds := leads_proceed idle path
  rw [begun] at proceeds
  exact ⟨_, proceeds.trans (leads_of_closes path rfl completes), rfl, rfl, rfl⟩

theorem resting_start (program : Source.Block) (tape : Tape) (console : Console)
    (session : Option Debug.Session) (nodes : List (Host.Location × Host.Node)) (config : Config) :
    Resting (start program tape console session nodes config) where
  kept := kept_start program tape console session nodes config
  unsettled := rfl
  tidy := Delivery.tidy_initial console session { nodes } config
  rests := .inl rfl

/-- Whatever a machine comes to by itself, clients connecting in between, is something that an execution
comes to; and so is how its run ends. -/
theorem run_leads (program : Source.Block) (tape : Tape) (console : Console)
    (session : Option Debug.Session) (nodes : List (Host.Location × Host.Node)) (config : Config)
    (path : String) (turns : List Sequential.Turn) :
    ∃ e, Sequential.run (start program tape console session nodes config).machine turns =
        .ok e.machine ∧
      (start program tape console session nodes config).Leads path e ∧
      ∀ outcome, e.machine.outcome? = some outcome → ∃ f, e.Leads path f ∧ f.isOver = true ∧
        f.machine.world = (e.machine.conclude path outcome).1 ∧
        f.result = some (e.machine.conclude path outcome).2 := by
  obtain ⟨e, ran, leads, resting⟩ :=
    (resting_start program tape console session nodes config).run turns path
  exact ⟨e, ran, leads, fun outcome ended => resting.conclude ended path⟩

/-- Once the run of a machine is concluded, everything that it acquired has been released. -/
theorem conclude_releases (program : Source.Block) (tape : Tape) (console : Console)
    (session : Option Debug.Session) (nodes : List (Host.Location × Host.Node)) (config : Config)
    (path : String) (turns : List Sequential.Turn) :
    ∃ m, Sequential.run (.start program tape { console, session, files := { nodes }, config }) turns =
        .ok m ∧
      ∀ outcome, m.outcome? = some outcome →
        ∃ e, (start program tape console session nodes config).Leads path e ∧
          e.system.world = (m.conclude path outcome).1 ∧ Released e.system := by
  obtain ⟨e, ran, leads, ends⟩ := run_leads program tape console session nodes config path turns
  refine ⟨e.machine, ran, fun outcome ended => ?_⟩
  obtain ⟨f, further, done, world, -⟩ := ends outcome ended
  have kept := (kept_start program tape console session nodes config).leads (leads.trans further)
  exact ⟨f, leads.trans further, world, kept.released done⟩

end Execution
end TapeLang

import TapeLang.Proofs.Breakdown
import TapeLang.Proofs.Interleaving.Advances

/-!
Programs at work among the handlers of their connections. A machine that comes to an output, an input
or a switch begins the operations that carry it out, and the interpreter takes these one atomic step at a
time (`Interleaving`), so that clients connect and handlers go on in between. Once an operation is over,
the machine goes on with what it came to; where nobody gets in between, that is what a step of the machine
does (`Machine.step_of_operation`, `Machine.step_of_attached`), and every run of a machine is one of these
executions (`Execution.run_leads`). When the machine has ended, its outcome is settled, and the release of
everything that it acquired is an operation of the same kind.
-/
namespace TapeLang

open Interleaving (Advances Attaches Completes Control Event Operation System ne_idle_of_isActing)

namespace Machine

/-- The operation that the current statement begins with, if it is about to act by one. -/
def operation? (m : Machine) : Option Operation :=
  match m.phase, m.frame.rest with
  | .ready, .act _ .output _ =>
    if !m.tape.hasCell then none
    else some (if m.world.target = .http then .awaitConnection else .broadcast m.tape.current)
  | .ready, .act _ .input _ => if m.tape.hasCell then some .read else none
  | .ready, .act _ (.switch name) _ => some (.switch name)
  | _, _ => none

/-- The operation that an output goes on with once a connection is attached. -/
def delivery (m : Machine) : Operation :=
  if m.tape.current = 0 then .finishCycle else .broadcast m.tape.current

/-- Goes on after the last operation of the current statement. -/
def resume (m : Machine) (verdict : Except Stop (Option UInt8)) : Machine :=
  match m.frame.rest with
  | .act head _ next =>
    match verdict with
    | .ok byte? => { m with tape := byte?.elim m.tape m.tape.write }.advance next
    | .error reason => m.stop head reason
  | _ => m

end Machine

/-- A program at work: its machine, the operation under way, what has happened to connections, and once
its outcome is settled, what the run returns. -/
structure Execution where
  machine : Machine
  control : Control := .idle
  log : List Event := []
  result : Option (Except Fault Int) := none

namespace Execution

/-- What the interpreter and the handlers share. -/
def system (e : Execution) : System := ⟨e.machine.world, e.control, e.log⟩

/-- Another state of what they share. -/
def become (e : Execution) (s : System) : Execution :=
  { e with machine := { e.machine with world := s.world }, control := s.control, log := s.log }

/-- Goes on after an operation, whose last step was taken in a state. -/
def goOn (e : Execution) (last : System) : Execution :=
  if e.result.isSome then e
  else
    match last.control with
    | .testing _ => e.become (e.system.undertake e.machine.delivery)
    | _ => { e with machine := e.machine.resume last.verdict }

/-- The next step of the program at a path between two operations. The run that has returned stays. -/
def proceed (path : String) (e : Execution) : Execution :=
  match e.result, e.machine.outcome? with
  | some _, _ => e
  | none, some outcome =>
    let (world, result) := Machine.settleOutcome e.machine.world path outcome
    { e with result := some result }.become ({ e.system with world }.undertake .close)
  | none, none =>
    match e.machine.operation? with
    | some operation => e.become (e.system.undertake operation)
    | none => { e with machine := e.machine.step }

/-- The next step of the interpreter. -/
def interpret (path : String) (e : Execution) : Except WaitFault Execution :=
  if e.control = .idle then .ok (e.proceed path)
  else do
    let s ← e.system.interpret
    return if s.control = .idle then (e.become s).goOn e.system else e.become s

/-- Who takes a step. -/
inductive Action where
  | interpret
  /-- a client connects to a listener and its request is read -/
  | arrive (listener : Nat) (body : List UInt8)
  | handle (id : Nat)
  /-- the streams of the console and the debug session become others -/
  | others (console : Console) (session : Option Debug.Session)

def step (path : String) (e : Execution) : Action → Except WaitFault Execution
  | .interpret => e.interpret path
  | .arrive listener body =>
    .ok (e.become (e.system.setTraffic (e.machine.world.traffic.arrive listener body)))
  | .handle id => (e.system.handle id).map e.become
  | .others console session =>
    .ok (e.become { e.system with world := { e.machine.world with console, session } })

/-- The steps of a list, one after the other. -/
def run (path : String) (e : Execution) (actions : List Action) : Except WaitFault Execution :=
  actions.foldlM (step path) e

/-- A program that is about to run; none of the files has been opened. -/
def start (program : Source.Block) (tape : Tape) (console : Console) (session : Option Debug.Session)
    (nodes : List (Host.Location × Host.Node)) (config : Config) : Execution :=
  { machine := .start program tape { console, session, files := { nodes }, config } }

/-- Whether the run has returned. -/
def isOver (e : Execution) : Bool := e.result.isSome && e.control = .idle

end Execution

/-! ## Executions that go on -/

namespace Execution

variable {e f g : Execution} {t last : System} {path : String} {verdict : Except Stop (Option UInt8)}

/-- One execution goes on to another. -/
def Leads (path : String) (e f : Execution) : Prop := ∃ actions, e.run path actions = .ok f

theorem Leads.refl (e : Execution) : e.Leads path e := ⟨[], rfl⟩

theorem Leads.trans (leads : e.Leads path f) (further : f.Leads path g) : e.Leads path g := by
  obtain ⟨actions, ran⟩ := leads
  obtain ⟨later, ran'⟩ := further
  refine ⟨actions ++ later, ?_⟩
  simp only [run, List.foldlM_append] at ran ran' ⊢
  rw [ran]
  exact ran'

theorem leads_once (action : Action) (taken : e.step path action = .ok f) : e.Leads path f := by
  refine ⟨[action], ?_⟩
  simp only [run, List.foldlM_cons, List.foldlM_nil, taken]
  rfl

theorem leads_proceed (idle : e.control = .idle) (path : String) : e.Leads path (e.proceed path) := by
  refine leads_once .interpret ?_
  simp only [Execution.step, interpret, idle, ↓reduceIte]

/-- The steps of an operation are steps of the execution. -/
theorem leads_of_advances (path : String) (advances : Advances e.system t) :
    e.Leads path (e.become t) := by
  induction advances with
  | refl => exact .refl e
  | @interpret t u _ interpreted busy ih =>
    refine ih.trans (leads_once .interpret ?_)
    have control : (e.become t).control ≠ .idle := by
      intro idle
      have idle : t.control = .idle := idle
      simp only [System.interpret, idle, Except.ok.injEq] at interpreted
      exact busy (interpreted ▸ idle)
    have interpreted : (e.become t).system.interpret = .ok u := interpreted
    simp only [Execution.step, interpret, if_neg control, interpreted]
    exact congrArg Except.ok (if_neg busy)
  | @handle t u id _ handled ih =>
    refine ih.trans (leads_once (.handle id) ?_)
    have handled : (e.become t).system.handle id = .ok u := handled
    simp only [Execution.step, handled]
    rfl

/-- The last step of an operation lets the program go on. -/
theorem leads_over (path : String) (advances : Advances e.system last) (busy : last.control ≠ .idle)
    (interpreted : last.interpret = .ok t) (ended : t.control = .idle) :
    e.Leads path ((e.become t).goOn last) := by
  refine (leads_of_advances path advances).trans (leads_once .interpret ?_)
  have busy : (e.become last).control ≠ .idle := busy
  have interpreted : (e.become last).system.interpret = .ok t := interpreted
  simp only [Execution.step, interpret, if_neg busy, interpreted]
  exact congrArg Except.ok (if_pos ended)

theorem goOn_settled (settled : e.result.isSome = true) (last : System) : e.goOn last = e :=
  if_pos settled

theorem goOn_testing (unsettled : e.result = none) {again : Bool} (control : last.control = .testing again) :
    e.goOn last = e.become (e.system.undertake e.machine.delivery) := by
  simp only [goOn, unsettled, control, Option.isSome_none, Bool.false_eq_true, ↓reduceIte]

theorem goOn_acting (unsettled : e.result = none) (acting : last.control.isActing = true) :
    e.goOn last = { e with machine := e.machine.resume last.verdict } := by
  unfold goOn
  rw [if_neg (by simp [unsettled])]
  split
  next control => simp [control, Control.isActing] at acting
  next => rfl

theorem leads_of_completes (path : String) (unsettled : e.result = none)
    (completes : Completes e.system t verdict) :
    e.Leads path { e.become t with machine := (e.become t).machine.resume verdict } := by
  obtain @⟨last, advances, acting, interpreted, ended, rfl⟩ := completes
  rw [← goOn_acting (e := e.become t) unsettled acting]
  exact leads_over path advances (ne_idle_of_isActing acting) interpreted ended

theorem leads_of_attaches (path : String) (unsettled : e.result = none)
    (attaches : Attaches e.system t) :
    e.Leads path ((e.become t).become (t.undertake e.machine.delivery)) := by
  obtain @⟨last, again, advances, control, interpreted, ended⟩ := attaches
  have went := leads_over path advances (by simp [control]) interpreted ended
  rwa [goOn_testing (e := e.become t) unsettled control] at went

theorem leads_of_closes (path : String) (settled : e.result.isSome = true)
    (completes : Completes e.system t verdict) : e.Leads path (e.become t) := by
  obtain @⟨last, advances, acting, interpreted, ended, -⟩ := completes
  have went := leads_over path advances (ne_idle_of_isActing acting) interpreted ended
  rwa [goOn_settled (e := e.become t) settled] at went

end Execution

/-! ## Operations that go through at once -/

/-- What comes of an operation that goes through at once: the world after it, and its verdict. -/
inductive World.Carries (w : World) : Operation → World → Except Stop (Option UInt8) → Prop where
  | broadcast (value : UInt8) : Carries w (.broadcast value) (w.broadcast value).1
      (((w.broadcast value).2.map fun _ => none).mapError fun error => .failure (.os error))
  | read : Carries w .read w.read.1
      ((w.read.2.map some).mapError fun error => .failure (.os error))
  | finishCycle (done : w.finishCycle = .ok v) : Carries w .finishCycle v (.ok none)
  | switch (name : String) : Carries w (.switch name) (w.switch name).1
      ((w.switch name).2.map fun _ => none)

namespace Machine

open Source (Action Block Header)

variable {m : Machine} {operation : Operation} {w v : World} {verdict : Except Stop (Option UInt8)}
  {head : Header} {action : Action} {next : Block}

theorem resume_stop (rest : m.frame.rest = .act head action next) (reason : Stop) :
    m.resume (.error reason) = m.stop head reason := by
  simp only [resume, rest]

/-- A statement that acts by an operation is an output, an input or a switch. -/
theorem operation?_eq_some (needs : m.operation? = some operation) :
    m.phase = .ready ∧ ∃ head action next, m.frame.rest = .act head action next ∧
      m.step = m.perform head action next ∧
      (action = .output ∧ operation =
          (if m.world.target = .http then .awaitConnection else .broadcast m.tape.current) ∨
        action = .input ∧ operation = .read ∨
        ∃ name, action = .switch name ∧ operation = .switch name) := by
  unfold operation? at needs
  split at needs
  next head next phase rest =>
    split at needs
    · simp at needs
    next cell =>
      have cell : m.tape.hasCell = true := by simpa using cell
      exact ⟨phase, head, _, next, rest, step_act phase cell rest,
        .inl ⟨rfl, (Option.some.inj needs).symm⟩⟩
  next head next phase rest =>
    split at needs
    next cell =>
      exact ⟨phase, head, _, next, rest, step_act phase cell rest,
        .inr (.inl ⟨rfl, (Option.some.inj needs).symm⟩)⟩
    · simp at needs
  next head name next phase rest =>
    refine ⟨phase, head, _, next, rest, ?_, .inr (.inr ⟨name, rfl, (Option.some.inj needs).symm⟩)⟩
    simp only [step, phase, act, rest, usesCell, Bool.false_and, Bool.false_eq_true, ↓reduceIte]
  · simp at needs

/-- Every operation that a statement begins with goes through at once, but for the wait for a
connection. -/
theorem carries_operation (needs : m.operation? = some operation)
    (other : operation ≠ .awaitConnection) : ∃ v verdict, m.world.Carries operation v verdict := by
  obtain ⟨-, -, -, -, -, -, ⟨-, begins⟩ | ⟨-, rfl⟩ | ⟨name, -, rfl⟩⟩ := operation?_eq_some needs
  · split at begins
    · exact absurd begins other
    · subst begins
      exact ⟨_, _, .broadcast _⟩
  · exact ⟨_, _, .read⟩
  · exact ⟨_, _, .switch name⟩

/-- Where the operation of a statement goes through at once, the machine steps to what it resumes
with. -/
theorem step_of_operation (needs : m.operation? = some operation)
    (carries : m.world.Carries operation v verdict) : m.step = { m with world := v }.resume verdict := by
  obtain ⟨-, head, action, next, rest, same, ⟨rfl, begins⟩ | ⟨rfl, begins⟩ | ⟨name, rfl, begins⟩⟩ :=
    operation?_eq_some needs
  · split at begins
    · subst begins
      cases carries
    next away =>
      subst begins
      cases carries
      rw [same, perform, output_away away]
      cases sent : (m.world.broadcast m.tape.current).2 with
      | ok => simp [sent, Except.map, Except.mapError, resume, rest]
      | error error => simp [sent, Except.map, Except.mapError, resume, rest]
  · subst begins
    cases carries
    rw [same, perform, input]
    cases read : m.world.read.2 <;> simp [read, Except.map, Except.mapError, resume, rest]
  · subst begins
    cases carries
    rw [same, perform]
    cases switched : (m.world.switch name).2 <;> simp [switched, Except.map, resume, rest]

/-- An output on the network goes on in the same way once its wait has found a connection. -/
theorem step_of_attached (needs : m.operation? = some .awaitConnection)
    (attached : m.world.awaitConnection = .ok (w, true))
    (carries : w.Carries m.delivery v verdict) : m.step = { m with world := v }.resume verdict := by
  obtain ⟨-, head, action, next, rest, same, ⟨rfl, begins⟩ | ⟨rfl, begins⟩ | ⟨name, rfl, begins⟩⟩ :=
    operation?_eq_some needs
  · split at begins
    next network =>
      rw [same, perform, output, if_pos network]
      simp only [attached]
      unfold delivery at carries
      split at carries
      next zero =>
        cases carries with
        | finishCycle done => simp [zero, done, resume, rest]
      next other =>
        cases carries
        cases sent : (w.broadcast m.tape.current).2 <;>
          simp [other, sent, Except.map, Except.mapError, resume, rest]
    · simp at begins
  · simp at begins
  · simp at begins

/-- Where its wait finds none, the output stays the current statement. -/
theorem step_of_unattached (needs : m.operation? = some .awaitConnection)
    (unattached : m.world.awaitConnection = .ok (v, false)) : m.step = { m with world := v } := by
  obtain ⟨-, head, action, next, rest, same, ⟨rfl, begins⟩ | ⟨rfl, begins⟩ | ⟨name, rfl, begins⟩⟩ :=
    operation?_eq_some needs
  · split at begins
    next network =>
      rw [same, perform, output, if_pos network]
      simp only [unattached]
    · simp at begins
  · simp at begins
  · simp at begins

end Machine
end TapeLang

import TapeLang.Proofs.Framing.Clients

/-!
The responses of whole runs. A step of the machine performs at most one action, and each action keeps
what is known of the clients, with the value that it outputs (`Framed.step`); so does a client that
connects in turn. Hence in every state of a run, and when the run is over, the clients of each stay
have got the segments of what was output during it.
-/
namespace TapeLang

open Source (Action Block Header)

namespace Machine

variable {m : Machine}

theorem output?_of_act (rest : m.frame.rest = .act head action next) (other : action ≠ .output) :
    m.output? = none := by
  unfold output?
  split
  next rest' =>
    rw [rest] at rest'
    cases rest'
    exact absurd rfl other
  next => rfl

end Machine

namespace Framing

open Http (Connection)
open Delivery
open Interleaving (initial)
open Machine

variable {m : Machine} {past : List Connection} {current : Option Connection}
  {values : List (Nat × UInt8)} {head : Header} {next : Block}

/-! ## One step -/

theorem Framed.network {w : World} (framed : Framed w past current values)
    (away : w.target ≠ .http) : w.listener = none := by
  obtain ⟨log, reachable⟩ := framed.tidy.reachable
  exact reachable.tallied.routed.unopened away

/-- What an output on the network does: it waits, ends a response, or writes to one. -/
theorem Framed.output_network (framed : Framed m.world past current values)
    (network : m.world.target = .http) (head : Header) (next : Block) :
    ∃ v, v = { m.world with traffic := v.traffic, endpoints := v.endpoints } ∧
      v.endpoints = m.world.drain.endpoints ∧
      v.traffic.connections = m.world.traffic.connections ∧ Framed v past current values ∧
      (v.endpoints = [] → (m.output head next).world = v) ∧
      (v.endpoints ≠ [] → m.tape.current = 0 → ∀ u, v.finishCycle = .ok u →
        (m.output head next).world = u) ∧
      (v.endpoints ≠ [] → m.tape.current ≠ 0 →
        (m.output head next).world = (v.broadcast m.tape.current).1) := by
  obtain ⟨v, awaited, endpoints, elsewhere, same, framed'⟩ := framed.awaitConnection
  refine ⟨v, elsewhere, endpoints, same, framed', ?_, ?_, ?_⟩
  · intro nobody
    simp [Machine.output, network, awaited, nobody]
  · intro somebody zero u cycled
    have found : (!v.endpoints.isEmpty) = true := by simp [somebody]
    simp only [Machine.output, network, awaited, found, zero, cycled, ↓reduceIte]
    rfl
  · intro somebody other
    have found : (!v.endpoints.isEmpty) = true := by simp [somebody]
    simp only [Machine.output, network, awaited, found, other, withWorld_eq, ↓reduceIte]
    split
    · rfl
    · exact stop_world _ _ _

/-- What is attached on the network is attached to an open listener. -/
theorem Framed.listening {v : World} (framed : Framed v past current values)
    (network : v.target = .http) (somebody : v.endpoints ≠ []) :
    ∃ listener, v.listener = some listener := by
  cases opened : v.listener with
  | none => exact absurd (framed.unopened network opened) somebody
  | some listener => exact ⟨listener, rfl⟩

theorem said_of_none {s : Serving} (quiet : s.machine.output? = none) : s.said = [] := by
  unfold Serving.said
  rw [quiet]
  split
  next somebody => simp at somebody
  next => rfl

theorem said_of_unopened {s : Serving} (unopened : s.machine.world.listener = none) : s.said = [] := by
  unfold Serving.said
  rw [unopened]

theorem said_of_output {s : Serving} {listener : Nat} {value : UInt8}
    (opened : s.machine.world.listener = some listener) (output : s.machine.output? = some value) :
    s.said = [(listener, value)] := by
  unfold Serving.said
  rw [opened, output]

/-- An output keeps what is known of the clients, with the value that it outputs. -/
theorem Framed.output (framed : Framed m.world past current values) (phase : m.phase = .ready)
    (rest : m.frame.rest = .act head .output next) (cell : m.tape.hasCell = true) :
    ∃ past' current', Framed (m.output head next).world past' current'
      (values ++ Serving.said ⟨m, values⟩) := by
  by_cases network : m.world.target = .http
  · obtain ⟨v, elsewhere, endpoints, -, framed', waits, ends, writes⟩ :=
      framed.output_network network head next
    by_cases somebody : v.endpoints = []
    · have quiet : m.output? = none := by
        simp [output?, phase, rest, cell, network, ← endpoints, somebody]
      rw [said_of_none quiet, List.append_nil, waits somebody]
      exact ⟨past, current, framed'⟩
    · have output : m.output? = some m.tape.current := by
        simp [output?, phase, rest, cell, ← endpoints, somebody]
      have network' : v.target = .http := by
        rw [elsewhere]
        exact network
      have kept : v.listener = m.world.listener := by rw [elsewhere]
      obtain ⟨listener, opened⟩ := framed'.listening network' somebody
      rw [said_of_output (s := ⟨m, values⟩) (kept.symm.trans opened) output]
      by_cases zero : m.tape.current = 0
      · obtain ⟨u, c, type, cycled, -, -, framed''⟩ := framed'.finishCycle opened somebody
        rw [ends somebody zero u cycled, zero]
        exact ⟨_, _, framed''⟩
      · obtain ⟨current', framed''⟩ := framed'.broadcast opened somebody zero
        rw [writes somebody zero]
        exact ⟨_, _, framed''⟩
  · have unopened := framed.network network
    have world := output_world network head next
    obtain ⟨current', framed'⟩ := framed.broadcast_unopened unopened m.tape.current
    rw [said_of_unopened (s := ⟨m, values⟩) unopened, List.append_nil, world]
    exact ⟨past, current', framed'⟩

/-- An action keeps what is known of the clients, with the value that it outputs. -/
theorem Framed.perform (framed : Framed m.world past current values) (phase : m.phase = .ready)
    {action : Action} (rest : m.frame.rest = .act head action next)
    (cell : action = .output → m.tape.hasCell = true) :
    ∃ past' current', Framed (m.perform head action next).world past' current'
      (values ++ Serving.said ⟨m, values⟩) := by
  have quietly (other : action ≠ .output) (v : World) (same : (m.perform head action next).world = v)
      (framed' : ∃ past' current', Framed v past' current' values) :
      ∃ past' current', Framed (m.perform head action next).world past' current'
        (values ++ Serving.said ⟨m, values⟩) := by
    rw [said_of_none (s := ⟨m, values⟩) (output?_of_act rest other), List.append_nil, same]
    exact framed'
  cases action with
  | increment | decrement | clear | push | none =>
    exact quietly (by simp) _ rfl ⟨past, current, framed⟩
  | moveRight | moveLeft =>
    refine quietly (by simp) m.world ?_ ⟨past, current, framed⟩
    simp only [Machine.perform]
    split
    · rfl
    · exact stop_world _ _ _
  | output => exact framed.output phase rest (cell rfl)
  | input =>
    obtain ⟨current', framed'⟩ := framed.read
    refine quietly (by simp) m.world.read.1 ?_ ⟨past, current', framed'⟩
    simp only [Machine.perform, Machine.input, withWorld_eq]
    split
    · rfl
    · exact stop_world _ _ _
  | switch name =>
    obtain ⟨past', framed'⟩ := framed.switch name
    refine quietly (by simp) (m.world.switch name).1 ?_ ⟨past', none, framed'⟩
    simp only [Machine.perform, withWorld_eq]
    split
    · rfl
    · exact stop_world _ _ _

/-- So does every step of the machine. -/
theorem Framed.step (framed : Framed m.world past current values) :
    ∃ past' current', Framed m.step.world past' current'
      (values ++ Serving.said ⟨m, values⟩) := by
  rcases step_performs m with ⟨quiet, still⟩ | ⟨head, action, next, phase, rest, cell, same⟩
  · obtain ⟨session, same⟩ := spares_of_still still
    rw [said_of_none (s := ⟨m, values⟩) quiet, List.append_nil]
    exact ⟨past, current, framed.of_mute (by rw [same]; rfl)⟩
  · rw [same]
    exact framed.perform phase rest cell

/-! ## Whole runs -/

/-- Each turn has a result and keeps what is known of the clients. -/
theorem Framed.turn {s : Serving} (framed : Framed s.machine.world past current s.values)
    (turn : Turn) : ∃ t past' current', s.turn turn = .ok t ∧
      Framed t.machine.world past' current' t.values := by
  cases turn with
  | step =>
    obtain ⟨past', current', framed'⟩ := framed.step
    exact ⟨_, past', current', rfl, framed'⟩
  | connect body =>
    by_cases served : s.machine.world.traffic.connections.all (·.reply.isSome)
    · cases opened : s.machine.world.listener with
      | none =>
        refine ⟨s, past, current, ?_, framed⟩
        simp only [Serving.turn, served, ↓reduceIte, connect_unopened opened]
        rfl
      | some listener =>
        obtain rfl : current = none := by
          cases current with
          | none => rfl
          | some c =>
            have member : c ∈ s.machine.world.traffic.connections.toList := by
              rw [framed.clients]
              simp
            have replied := Array.all_eq_true_iff_forall_mem.mp served c (Array.mem_toList_iff.mp member)
            rw [(framed.waits c rfl).2.1] at replied
            simp at replied
        obtain ⟨v, connected, framed'⟩ := framed.connect body opened
        refine ⟨{ s with machine := { s.machine with world := v } }, _, _, ?_, framed'⟩
        simp only [Serving.turn, served, ↓reduceIte, connected]
        rfl
    · exact ⟨s, past, current, by simp only [Serving.turn, served]; rfl, framed⟩

theorem Framed.run {s : Serving} (framed : Framed s.machine.world past current s.values)
    (turns : List Turn) : ∃ t past' current', s.run turns = .ok t ∧
      Framed t.machine.world past' current' t.values := by
  induction turns generalizing s past current with
  | nil => exact ⟨s, past, current, rfl, framed⟩
  | cons turn later ih =>
    obtain ⟨u, past', current', turned, framed'⟩ := framed.turn turn
    obtain ⟨t, past'', current'', ran, framed''⟩ := ih framed'
    refine ⟨t, past'', current'', ?_, framed''⟩
    rw [Serving.run, List.foldlM_cons, turned]
    exact ran

/-! ## Values that are output on the network -/

theorem step_output {value : UInt8} (output : m.output? = some value) :
    ∃ head next, m.phase = .ready ∧ m.frame.rest = .act head .output next ∧
      m.tape.current = value ∧ (m.world.target = .http → m.world.drain.endpoints ≠ []) ∧
        m.step = m.output head next := by
  unfold output? at output
  split at output
  next head next phase rest =>
    by_cases cell : m.tape.hasCell = true
    · simp only [cell, Bool.not_true, Bool.false_eq_true, ↓reduceIte] at output
      split at output
      · simp at output
      next awaited =>
        refine ⟨head, next, phase, rest, Option.some.inj output, ?_, ?_⟩
        · intro network nobody
          exact awaited (by simp [network, nobody])
        · simp only [Machine.step, phase, act, rest, cell, Bool.not_true, Bool.and_false,
            Bool.false_eq_true, ↓reduceIte]
          rfl
    · simp [cell] at output
  next => simp at output

/-- A value goes to the connections alone, and a zero completes the one that waits. -/
theorem Framed.networked (framed : Framed m.world past current values) {value : UInt8}
    (output : m.output? = some value) (network : m.world.target = .http) : Networked m value := by
  obtain ⟨head, next, phase, rest, rfl, attached, same⟩ := step_output output
  obtain ⟨v, elsewhere, endpoints, connections, framed', -, ends, writes⟩ :=
    framed.output_network network head next
  have somebody : v.endpoints ≠ [] := by
    rw [endpoints]
    exact attached network
  have console : v.console = m.world.console := by rw [elsewhere]
  have session : v.session = m.world.session := by rw [elsewhere]
  have files : v.files = m.world.files := by rw [elsewhere]
  have target : v.target = .http := by
    rw [elsewhere]
    exact network
  obtain ⟨listener, opened⟩ := framed'.listening target somebody
  have before : m.world.listener = some listener := by
    rw [← opened, elsewhere]
  by_cases zero : m.tape.current = 0
  · obtain ⟨u, c, type, cycled, apart, rfl, framed''⟩ := framed'.finishCycle opened somebody
    have stepped : m.step.world = u := by rw [same, ends somebody zero u cycled]
    refine ⟨⟨listener, before⟩, ?_, ?_⟩
    · rw [stepped, apart]
      exact ⟨console, session, files⟩
    · intro _
      refine ⟨past.length, c, answered type c, ?_, ?_, (framed'.waits c rfl).2.1, rfl⟩
      · rw [← connections, getElem?_current framed'.clients]
      · rw [stepped, getElem?_current (by simpa using framed''.clients)]
  · have stepped : m.step.world = (v.broadcast m.tape.current).1 := by
      rw [same, writes somebody zero]
    refine ⟨⟨listener, before⟩, ?_, fun ended => absurd ended zero⟩
    rw [stepped, framed'.tidy.broadcast_eq (by simp [opened]), drain_elsewhere v]
    exact ⟨console, session, files⟩

/-! ## The end of a run -/

theorem mute_reportError (w : World) (text : String) : (w.reportError text).1.mute = w.mute := by
  have written : ((w.writeError text).toOption.getD w).mute = w.mute := by
    cases written : w.writeError text with
    | error _ => rfl
    | ok v => exact World.mute_of_writeConsole written
  unfold World.reportError
  rw [← written]
  dsimp only
  split
  · split
    · split <;> rfl
    · rfl
  · rfl

/-- A run that ends, in whatever way, leaves no listener, and whoever waited has a response. -/
theorem Framed.conclude (framed : Framed m.world past current values) (path : String)
    (outcome : Outcome) : (m.conclude path outcome).1.listener = none ∧
      ∃ past', Framed (m.conclude path outcome).1 past' none values := by
  have settled : (settleOutcome m.world path outcome).1.mute = m.world.mute := by
    cases outcome with
    | completed | steppedOut | broken => rfl
    | failed failure position =>
      have reported := mute_reportError m.world (failure.located position path).report
      simp only [settleOutcome]
      split <;> simp_all
  have released (w : World) (result : Except Fault Int) : (w.release result).1 = w.close.1 := by
    unfold World.release
    split <;> simp_all
  have same : (m.conclude path outcome).1 = (settleOutcome m.world path outcome).1.close.1 :=
    released _ _
  rw [same]
  exact (framed.of_mute settled).close

theorem framed_initial (console : Console) (session : Option Debug.Session) (files : Host.Files)
    (config : Config) : Framed (initial console session files config).world [] none [] where
  tidy := tidy_initial console session files config
  unopened := by simp [initial]
  clients := rfl
  served := by simp
  waits := by simp
  heard := by simp
  opened := by simp [initial]
  shut _ _ := .inr rfl

/-- Sentinel framing. In every state of a run whose clients come one at a time, the bodies of the
responses of each stay on the network are the segments of what was output during it, split at its
zeros; what the last segment has so far is written to the client that waits, which gets it when the
stay is over. What is output there goes nowhere else, and a zero completes a connection. -/
theorem responses_are_segments (program : Block) (tape : Tape) (console : Console)
    (session : Option Debug.Session) (files : Host.Files) (config : Config) (turns : List Turn) :
    ∃ s, Serving.run
        { machine := .start program tape (initial console session files config).world } turns =
          .ok s ∧
      (∀ listener, Stay s.machine.world listener (spoken listener s.values)) ∧
      (∀ value, s.machine.output? = some value → s.machine.world.target = .http →
        Networked s.machine value) ∧
      ∀ path outcome, s.machine.outcome? = some outcome →
        (s.machine.conclude path outcome).1.listener = none ∧
        ∀ listener, Stay (s.machine.conclude path outcome).1 listener (spoken listener s.values) := by
  have framed : Framed (Machine.start program tape
      (initial console session files config).world).world [] none [] :=
    framed_initial console session files config
  obtain ⟨s, past, current, ran, framed⟩ := Framed.run
    (s := { machine := .start program tape (initial console session files config).world }) framed turns
  refine ⟨s, ran, framed.stay, fun value => framed.networked, ?_⟩
  intro path outcome _
  obtain ⟨unopened, past', framed'⟩ := framed.conclude path outcome
  exact ⟨unopened, framed'.stay⟩

/-- The first client gets what comes before the zero. The second one connects while the program waits
for somebody to output to, and gets what no zero has ended when the program leaves the network. -/
example :
    let program : Block :=
      .act {} (.switch "http") <| .act {} (.push 72) <| .act {} .output <| .act {} .clear <|
        .act {} .output <| .act {} (.push 105) <| .act {} .output <| .act {} (.switch "std") .nil
    let steps := List.replicate 12 Turn.step
    (Serving.run { machine := .start program ⟨#[0], 0⟩ {} }
        (steps ++ [.connect []] ++ steps ++ [.connect []] ++ steps)).toOption.map
      (fun s => (s.machine.outcome?, s.values, bodies s.machine.world 0)) =
      some (some .completed, [(0, 72), (0, 0), (0, 105)], [[72], [105]]) := by
  decide +kernel

end Framing
end TapeLang

import TapeLang.Proofs.Interleaving.Custody

/-!
What the log tells of a connection. Its bytes are those of the response, its replies are those that
were sent, and it says once whether the connection was registered or turned away (`Recorded`). Only
what is live is written to and nothing live is complete, so no write follows the completion of a
response, and the payload of a reply is everything that was ever written.
-/
namespace TapeLang.Interleaving

open Http (Connection Listener Reply Stage Traffic)

/-! ## What a log tells -/

namespace Event

/-- The connection an event is about. -/
def subject? : Event → Option Nat
  | .registered id | .rejected id | .replied id _ | .wrote id _ | .finished id => some id
  | .closed _ => none

def byte? (id : Nat) : Event → Option UInt8
  | .wrote other byte => if other = id then some byte else none
  | _ => none

def reply? (id : Nat) : Event → Option Reply
  | .replied other reply => if other = id then some reply else none
  | _ => none

/-- Whether a connection was registered or turned away. -/
def verdict? (id : Nat) : Event → Option Bool
  | .registered other => if other = id then some true else none
  | .rejected other => if other = id then some false else none
  | _ => none

end Event

/-- The bytes written to a connection, in order. -/
def written (id : Nat) (log : List Event) : List UInt8 := log.reverse.filterMap (Event.byte? id)

/-- The replies that a client got. -/
def replies (id : Nat) (log : List Event) : List Reply := log.filterMap (Event.reply? id)

/-- What was decided about a connection. -/
def verdicts (id : Nat) (log : List Event) : List Bool := log.filterMap (Event.verdict? id)

/-- No write follows the completion of a response. -/
def Ordered (log : List Event) : Prop :=
  log.Pairwise fun later earlier => ∀ id byte, later = .wrote id byte → earlier ≠ .finished id

/-! ## What a connection tells -/

def isAnswer : Reply → Bool
  | .answered .. => true
  | .refused .. => false

/-- What was decided about a connection, as far as it has come. -/
def verdict (c : Connection) : Option Bool :=
  match c.stage with
  | .counting | .registering => none
  | .refusing => some false
  | .releasing | .waiting | .answering => some true
  | .leaving | .gone => c.reply.map isAnswer

/-- The log of a connection is what it has come through. -/
structure Recorded (id : Nat) (c : Connection) (log : List Event) : Prop where
  written : written id log = c.output.toList
  replies : replies id log = c.reply.toList
  verdicts : verdicts id log = (verdict c).toList
  finished : .finished id ∈ log ↔ c.finished = true
  answering : c.stage = .answering → c.finished = true
  replied : c.reply ≠ none ↔ c.stage = .leaving ∨ c.stage = .gone
  reply : ∀ reply, c.reply = some reply → reply = .refused 503 "target closed" ∨
    c.finished = true ∧ ∃ type, reply = .answered type c.output.toList

/-- The connection that a number stands for; one that has not arrived is fresh. -/
def connectionAt (t : Traffic) (id : Nat) : Connection :=
  t.connections[id]?.getD { listener := 0, input := [] }

structure Ledger (t : Traffic) (log : List Event) : Prop where
  recorded : ∀ id, Recorded id (connectionAt t id) log
  ordered : Ordered log

variable {s t : System} {traffic later : Traffic} {id other : Nat} {c : Connection} {p a w : Nat}
  {after : Control} {log events : List Event}

/-! ## Events -/

@[simp] theorem written_cons (e : Event) (log : List Event) :
    written id (e :: log) = written id log ++ (e.byte? id).toList := by
  cases byte : e.byte? id <;> simp [written, List.filterMap_append, byte]

@[simp] theorem replies_cons (e : Event) (log : List Event) :
    replies id (e :: log) = (e.reply? id).toList ++ replies id log := by
  cases reply : e.reply? id <;> simp [replies, reply]

@[simp] theorem verdicts_cons (e : Event) (log : List Event) :
    verdicts id (e :: log) = (e.verdict? id).toList ++ verdicts id log := by
  cases verdict : e.verdict? id <;> simp [verdicts, verdict]

/-- Events about others tell nothing of a connection. -/
theorem Recorded.skip (recorded : Recorded id c log) (about : ∀ e ∈ events, e.subject? ≠ some id) :
    Recorded id c (events ++ log) := by
  have nothing : ∀ e ∈ events, e.byte? id = none ∧ e.reply? id = none ∧ e.verdict? id = none ∧
      e ≠ .finished id := by
    intro e member
    have other := about e member
    cases e <;> simp_all [Event.subject?, Event.byte?, Event.reply?, Event.verdict?]
  have noBytes : events.reverse.filterMap (Event.byte? id) = [] :=
    List.filterMap_eq_nil_iff.mpr fun e member => (nothing e (List.mem_reverse.mp member)).1
  have noReplies : events.filterMap (Event.reply? id) = [] :=
    List.filterMap_eq_nil_iff.mpr fun e member => (nothing e member).2.1
  have noVerdicts : events.filterMap (Event.verdict? id) = [] :=
    List.filterMap_eq_nil_iff.mpr fun e member => (nothing e member).2.2.1
  have notFinished : .finished id ∉ events := fun member => (nothing _ member).2.2.2 rfl
  refine { recorded with written := ?_, replies := ?_, verdicts := ?_, finished := ?_ }
  · rw [Interleaving.written, List.reverse_append, List.filterMap_append, noBytes, List.append_nil]
    exact recorded.written
  · rw [Interleaving.replies, List.filterMap_append, noReplies]
    exact recorded.replies
  · rw [Interleaving.verdicts, List.filterMap_append, noVerdicts]
    exact recorded.verdicts
  · rw [List.mem_append, or_iff_right notFinished]
    exact recorded.finished

/-- What arrives or is read is not recorded. -/
theorem Recorded.of_same (recorded : Recorded id c log) {c' : Connection}
    (output : c'.output = c.output) (finished : c'.finished = c.finished)
    (stage : c'.stage = c.stage) (reply : c'.reply = c.reply) : Recorded id c' log := by
  have verdict : verdict c' = verdict c := by rw [verdict, verdict, stage, reply]
  constructor
  · rw [output]; exact recorded.written
  · rw [reply]; exact recorded.replies
  · rw [verdict]; exact recorded.verdicts
  · rw [finished]; exact recorded.finished
  · rw [stage, finished]; exact recorded.answering
  · rw [reply, stage]; exact recorded.replied
  · rw [reply, finished, output]; exact recorded.reply

/-! ## Connections that change -/

/-- What the step of a handler records is about its connection, and no write. -/
theorem Handles.subject (handles : Handles traffic id c p a w later events) :
    ∀ e ∈ events, e.subject? = some id ∧ ∀ other byte, e ≠ .wrote other byte := by
  cases handles <;> simp [Event.subject?]

/-- The step of a handler is recorded. -/
theorem Recorded.handles (recorded : Recorded id c log)
    (handles : Handles traffic id c p a w later events)
    (known : traffic.connections[id]? = some c) :
    ∃ c', later.connections[id]? = some c' ∧ Recorded id c' (events ++ log) := by
  have written := recorded.written
  have told := recorded.verdicts
  have finished := recorded.finished
  have silent (other : ¬ (c.stage = .leaving ∨ c.stage = .gone)) : c.reply = none :=
    Decidable.not_not.mp fun some => other (recorded.replied.mp some)
  cases handles with
  | stay => exact ⟨c, known, recorded⟩
  | count stage | release stage =>
    refine ⟨_, getElem?_update_self known _, { recorded with
      verdicts := ?_, answering := by simp, replied := ?_ }⟩
    · simpa [verdict, stage] using told
    · simp [silent (by simp [stage])]
  | reject stage | register stage =>
    refine ⟨_, getElem?_update_self known _, { recorded with
      written := ?_, replies := ?_, verdicts := ?_, finished := ?_, answering := by simp
      replied := ?_ }⟩
    · simpa [Event.byte?] using written
    · simpa [Event.reply?] using recorded.replies
    · simp only [verdict, stage] at told
      simp [verdict, Event.verdict?, told]
    · simpa using finished
    · simp [silent (by simp [stage])]
  | proceed stage complete =>
    refine ⟨_, getElem?_update_self known _, { recorded with
      verdicts := ?_, answering := fun _ => complete, replied := ?_ }⟩
    · simpa [verdict, stage] using told
    · simp [silent (by simp [stage])]
  | answer stage | refuse stage =>
    have none := silent (by simp [stage])
    have sent := recorded.replies
    rw [none] at sent
    refine ⟨_, getElem?_update_self known _, ?_, ?_, ?_, ?_, by simp, by simp, ?_⟩
    · simpa [Event.byte?] using written
    · simp [Event.reply?, sent]
    · simp only [verdict, stage] at told
      simp [verdict, Event.verdict?, told, isAnswer, Traffic.response]
    · simpa using finished
    · first
        | exact fun _ same => .inl (Option.some.inj same).symm
        | exact fun _ same => .inr ⟨recorded.answering stage, _, (Option.some.inj same).symm⟩
  | leave stage =>
    refine ⟨_, getElem?_update_self known _, { recorded with
      verdicts := ?_, answering := by simp, replied := ?_ }⟩
    · simpa [verdict, stage] using told
    · simpa [stage] using recorded.replied

/-- A write to a connection that has got no reply is recorded. -/
theorem Recorded.write (recorded : Recorded id c log)
    (stage : c.stage = .releasing ∨ c.stage = .waiting) (byte : UInt8) :
    Recorded id { c with output := c.output.push byte } (.wrote id byte :: log) := by
  have none : c.reply = none := by
    have silent : ¬ (c.stage = .leaving ∨ c.stage = .gone) := by
      rcases stage with stage | stage <;> simp [stage]
    exact Decidable.not_not.mp fun some => silent (recorded.replied.mp some)
  refine { recorded with written := ?_, replies := ?_, verdicts := ?_, finished := ?_, reply := ?_ }
  · simp [Event.byte?, recorded.written]
  · simpa [Event.reply?] using recorded.replies
  · exact (verdicts_cons _ _).trans recorded.verdicts
  · simpa using recorded.finished
  · simp [none]

/-- The completion of a response is recorded. -/
theorem Recorded.finish (recorded : Recorded id c log) :
    Recorded id { c with finished := true } (.finished id :: log) := by
  refine { recorded with
    written := ?_, replies := ?_, verdicts := ?_, finished := ?_, answering := fun _ => rfl
    reply := ?_ }
  · simpa [Event.byte?] using recorded.written
  · simpa [Event.reply?] using recorded.replies
  · exact (verdicts_cons _ _).trans recorded.verdicts
  · simp
  · intro reply same
    exact (recorded.reply reply same).imp_right fun complete => ⟨rfl, complete.2⟩

/-! ## Ledgers -/

theorem connectionAt_of_known (known : traffic.connections[id]? = some c) :
    connectionAt traffic id = c := by
  rw [connectionAt, known]
  rfl

theorem Ordered.append (ordered : Ordered log)
    (silent : ∀ e ∈ events, ∀ id byte, e ≠ .wrote id byte) : Ordered (events ++ log) := by
  induction events with
  | nil => exact ordered
  | cons e events ih =>
    apply List.pairwise_cons.mpr
    constructor
    · intro earlier _ id byte same
      exact absurd same (silent e List.mem_cons_self id byte)
    · apply ih
      intro e member
      exact silent e (List.mem_cons_of_mem _ member)

/-- A step that changes one connection, and records what it does to it. -/
theorem Ledger.change (ledger : Ledger traffic log) (ordered : Ordered (events ++ log))
    (others : ∀ other, other ≠ id → later.connections[other]? = traffic.connections[other]?)
    (subject : ∀ e ∈ events, e.subject? = some id)
    (own : Recorded id (connectionAt later id) (events ++ log)) : Ledger later (events ++ log) where
  recorded other := by
    by_cases apart : other = id
    · subst apart
      exact own
    · rw [connectionAt, others other apart]
      refine (ledger.recorded other).skip ?_
      intro e member
      rw [subject e member]
      exact fun same => apart (Option.some.inj same).symm
  ordered

theorem update_others (t : Traffic) (f : Connection → Connection) (apart : other ≠ id) :
    (t.update id f).connections[other]? = t.connections[other]? := by
  rw [getElem?_update, if_neg (Ne.symm apart)]

theorem Ledger.handles (ledger : Ledger traffic log)
    (handles : Handles traffic id c p a w later events)
    (known : traffic.connections[id]? = some c) : Ledger later (events ++ log) := by
  have own := ledger.recorded id
  rw [connectionAt_of_known known] at own
  obtain ⟨c', known', recorded⟩ := own.handles handles known
  refine ledger.change (ledger.ordered.append fun e member => (handles.subject e member).2)
    (fun other apart => handles.others apart) (fun e member => (handles.subject e member).1) ?_
  rw [connectionAt_of_known known']
  exact recorded

theorem Ledger.write (ledger : Ledger traffic log) (pending : Pending traffic id) (byte : UInt8) :
    Ledger (traffic.write id byte) (.wrote id byte :: log) := by
  obtain ⟨c, known, stage, incomplete⟩ := pending
  have own := ledger.recorded id
  rw [connectionAt_of_known known] at own
  refine @Ledger.change traffic _ id log [.wrote id byte] ledger ?_
    (fun other apart => update_others _ _ apart) (by simp [Event.subject?]) ?_
  · refine List.pairwise_cons.mpr ⟨?_, ledger.ordered⟩
    rintro earlier member other byte' same rfl
    obtain ⟨rfl, -⟩ := Event.wrote.inj same
    simp [own.finished.mp member] at incomplete
  · rw [Traffic.write, connectionAt_of_known (getElem?_update_self known _)]
    exact own.write stage byte

theorem Ledger.finish (ledger : Ledger traffic log) (decided : Decided traffic id) :
    Ledger (traffic.finish id) (.finished id :: log) := by
  obtain ⟨c, known, -⟩ := decided
  have own := ledger.recorded id
  rw [connectionAt_of_known known] at own
  refine @Ledger.change traffic _ id log [.finished id] ledger
    (ledger.ordered.append (by simp)) (fun other apart => update_others _ _ apart)
    (by simp [Event.subject?]) ?_
  rw [Traffic.finish, connectionAt_of_known (getElem?_update_self known _)]
  exact own.finish

theorem Ledger.arrive (ledger : Ledger traffic log) (listener : Nat) (body : List UInt8) :
    Ledger (traffic.arrive listener body) log where
  recorded id := by
    have own := ledger.recorded id
    simp only [connectionAt, Traffic.arrive, Array.getElem?_push]
    split
    next newest =>
      have unknown : traffic.connections[id]? = none := by simp [newest]
      rw [connectionAt, unknown] at own
      exact own.of_same rfl rfl rfl rfl
    next => exact own
  ordered := ledger.ordered

theorem Ledger.read (ledger : Ledger traffic log) (other : Nat) (input : List UInt8) :
    Ledger (traffic.update other ({ · with input })) log where
  recorded id := by
    have own := ledger.recorded id
    rw [connectionAt, getElem?_update]
    split
    · cases known : traffic.connections[id]? with
      | none =>
        rw [connectionAt, known] at own
        exact own
      | some c =>
        rw [connectionAt_of_known known] at own
        exact own.of_same rfl rfl rfl rfl
    · exact own
  ordered := ledger.ordered

theorem Ledger.interprets (ledger : Ledger s.world.traffic s.log) (guarded : Guarded s)
    (interprets : Interprets s p a w t) : Ledger t.world.traffic t.log := by
  cases interprets with
  | write control => exact ledger.write (guarded.written control) _
  | read => exact ledger.read _ _
  | finish control | complete control =>
    exact ledger.finish (guarded.custody.decided _ (by rw [control]; exact List.mem_cons_self))
  | @release purpose left id control held =>
    refine ⟨?_, ledger.ordered.append (by simp)⟩
    intro other
    exact (ledger.recorded other).skip (by simp [Event.subject?])
  | _ => exact ⟨ledger.recorded, ledger.ordered⟩

/-! ## Runs -/

theorem ledger_initial : Ledger (initial console session files config).world.traffic
    (initial console session files config).log where
  recorded id := by
    constructor <;> simp [initial, written, replies, verdicts, connectionAt, verdict]
  ordered := List.Pairwise.nil

/-- In every reachable state, the log tells what the connections have come through. -/
theorem Reachable.ledger (reachable : Reachable s) : Ledger s.world.traffic s.log := by
  refine @Reachable.invariant s (fun s => Ledger s.world.traffic s.log) ?_ ?_ reachable
  · exact fun _ _ _ _ => ledger_initial
  · intro s t p a w action reached _ _ _ steps ledger
    cases steps with
    | arrive => exact ledger.arrive _ _
    | handle known handles => exact ledger.handles handles known
    | interpret interprets => exact ledger.interprets reached.guarded.2 interprets
    | @undertake operation idle =>
      rw [(undertake_traffic s operation).1, (undertake_traffic s operation).2]
      exact ledger
    | unknown | busy => exact ledger

end TapeLang.Interleaving

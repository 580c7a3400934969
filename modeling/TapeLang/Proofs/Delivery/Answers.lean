import TapeLang.Proofs.Delivery
import TapeLang.Proofs.Delivery.Effects

/-!
Which bytes each client receives. From when its client connects, a connection is in the inbox, then
attached, then answered (`Seat`); what happens takes it from one to the next (`Seated.happen`), and so
does any sequence of events (`Seated.run`). Where it stands follows from what has happened since: it is
answered by the first event that concludes it, with the bytes sent until then.
-/
namespace TapeLang.Delivery

open Http (Connection Reply Response Stage Traffic)
open Interleaving (initial Reachable)

/-- Where a connection stands, and which bytes were written to it. -/
inductive Seat where
  | queued
  | attached (bytes : List UInt8)
  | answered (bytes : List UInt8)
deriving DecidableEq

/-- Where a connection stands after one more event. -/
def Seat.after : Seat → Event → Seat
  | .queued, .awaitConnection | .queued, .read => .attached []
  | .queued, .broadcast value => .attached [Tape.byte value]
  | .queued, .switch _ | .queued, .close => .answered []
  | .attached bytes, .broadcast value => .attached (bytes ++ [Tape.byte value])
  | .attached bytes, .finishCycle | .attached bytes, .switch _ | .attached bytes, .close =>
    .answered bytes
  | seat, _ => seat

theorem Seat.after_awaitConnection (seat : Seat) : seat.after .awaitConnection = seat.after .read := by
  cases seat <;> rfl

theorem Seat.after_switch (seat : Seat) (name : String) : seat.after (.switch name) = seat.after .close := by
  cases seat <;> rfl

theorem Seat.after_connect (seat : Seat) (body : List UInt8) : seat.after (.connect body) = seat := by
  cases seat <;> rfl

/-- A connection of a world stands at a seat. -/
def Seated (w : World) (id : Nat) : Seat → Prop
  | .queued => id ∈ queue w ∧ ∃ c, w.traffic.connections[id]? = some c ∧ c.stage = .waiting ∧
      c.reply = none ∧ c.output.toList = []
  | .attached bytes => .connection id ∈ w.endpoints ∧ ∃ c, w.traffic.connections[id]? = some c ∧
      c.stage = .waiting ∧ c.reply = none ∧ c.output.toList = bytes
  | .answered bytes => ∃ c type, w.traffic.connections[id]? = some c ∧ c.stage = .gone ∧
      c.reply = some (.answered type bytes) ∧ c.output.toList = bytes

variable {w v : World} {id : Nat} {c : Connection} {bytes : List UInt8} {seat : Seat}
  {event : Event} {events later : List Event} {more : List Nat}

/-! ## One event -/

/-- A response that got no byte and was not sent. -/
def Kept (c d : Connection) : Prop := d.stage = c.stage ∧ d.reply = c.reply ∧ d.output = c.output

theorem Seated.taken (seated : Seated w id seat) (takes : Takes w v)
    (becomes : Becomes w.traffic v.traffic fun _ c d => Kept c d) :
    Seated v id (seat.after .read) := by
  cases seat with
  | queued =>
    obtain ⟨queued, c, known, waiting, unanswered, empty⟩ := seated
    obtain ⟨d, known', stage, reply, output⟩ := becomes.known id c known
    refine ⟨takes.mem_endpoints (.inl queued), d, known', stage.trans waiting,
      reply.trans unanswered, ?_⟩
    rw [output, empty]
  | attached bytes =>
    obtain ⟨attached, c, known, waiting, unanswered, written⟩ := seated
    obtain ⟨d, known', stage, reply, output⟩ := becomes.known id c known
    refine ⟨takes.mem_endpoints (.inr attached), d, known', stage.trans waiting,
      reply.trans unanswered, ?_⟩
    rw [output, written]
  | answered bytes =>
    obtain ⟨c, type, known, gone, answered, written⟩ := seated
    obtain ⟨d, known', stage, reply, output⟩ := becomes.known id c known
    exact ⟨d, type, known', stage.trans gone, reply.trans answered, by rw [output, written]⟩

theorem Seated.broadcast (seated : Seated w id seat) (tidy : Tidy w) (value : Int) :
    Seated (w.broadcast (Tape.byte value)).1 id (seat.after (.broadcast value)) := by
  obtain ⟨tidy', takes, becomes⟩ := tidy.broadcast (Tape.byte value)
  have extended {c : Connection} {bytes : List UInt8} (live : id ∈ queue w ∨ .connection id ∈ w.endpoints)
      (known : w.traffic.connections[id]? = some c) (waiting : c.stage = .waiting)
      (unanswered : c.reply = none) (written : c.output.toList = bytes) :
      Seated (w.broadcast (Tape.byte value)).1 id (.attached (bytes ++ [Tape.byte value])) := by
    have attached := takes.mem_endpoints live
    obtain ⟨d, known', appended, -⟩ := becomes.known id c known
    obtain rfl := appended attached
    refine ⟨attached, _, known', waiting, unanswered, ?_⟩
    rw [Delivery.appended, Array.toList_push, written]
  cases seat with
  | queued =>
    obtain ⟨queued, c, known, waiting, unanswered, empty⟩ := seated
    exact extended (.inl queued) known waiting unanswered empty
  | attached bytes =>
    obtain ⟨attached, c, known, waiting, unanswered, written⟩ := seated
    exact extended (.inr attached) known waiting unanswered written
  | answered bytes =>
    obtain ⟨c, type, known, gone, answered, written⟩ := seated
    obtain ⟨d, known', appended, same⟩ := becomes.known id c known
    by_cases attached : .connection id ∈ (w.broadcast (Tape.byte value)).1.endpoints
    · obtain ⟨d', known'', waiting, -⟩ := tidy'.pending (.inr attached)
      obtain rfl := Option.some.inj (known'.symm.trans known'')
      obtain rfl := appended attached
      simp [Delivery.appended, gone] at waiting
    · obtain rfl := same attached
      exact ⟨_, type, known', gone, answered, written⟩

/-- A connection that is answered, or stays answered as it was. -/
theorem Seated.concluded {p : Nat → Prop} (seated : Seated w id seat)
    (becomes : Becomes w.traffic v.traffic (Answers p)) (own : seat ≠ .answered bytes → p id)
    (written : seat = .queued ∧ bytes = [] ∨ seat = .attached bytes ∨ seat = .answered bytes) :
    Seated v id (.answered bytes) := by
  have concluded {c : Connection} (own : p id) (known : w.traffic.connections[id]? = some c)
      (waiting : c.stage = .waiting) (output : c.output.toList = bytes) :
      Seated v id (.answered bytes) := by
    obtain ⟨d, known', ends, -⟩ := becomes.known id c known
    obtain ⟨type, rfl⟩ := ends own waiting
    exact ⟨_, type, known', rfl, by rw [answered, output], output⟩
  rcases written with ⟨rfl, rfl⟩ | rfl | rfl
  · obtain ⟨-, c, known, waiting, -, empty⟩ := seated
    exact concluded (own (by simp)) known waiting empty
  · obtain ⟨-, c, known, waiting, -, output⟩ := seated
    exact concluded (own (by simp)) known waiting output
  · obtain ⟨c, type, known, gone, reply, output⟩ := seated
    obtain ⟨d, known', -, stays⟩ := becomes.known id c known
    obtain rfl := stays (.inr gone)
    exact ⟨_, type, known', gone, reply, output⟩

theorem Seated.left (seated : Seated w id seat)
    (becomes : Becomes w.traffic v.traffic (Answers fun _ => True)) :
    Seated v id (seat.after .close) := by
  cases seat with
  | queued => exact seated.concluded becomes (fun _ => trivial) (.inl ⟨rfl, rfl⟩)
  | attached bytes => exact seated.concluded becomes (fun _ => trivial) (.inr (.inl rfl))
  | answered bytes => exact seated.concluded becomes (fun _ => trivial) (.inr (.inr rfl))

theorem Seated.finishCycle (seated : Seated w id seat) (tidy : Tidy w) (queues : queue v = queue w)
    (becomes : Becomes w.traffic v.traffic (Answers (.connection · ∈ w.endpoints))) :
    Seated v id (seat.after .finishCycle) := by
  cases seat with
  | queued =>
    obtain ⟨queued, c, known, rest⟩ := seated
    have unattached : .connection id ∉ w.endpoints := by
      intro attached
      obtain ⟨log, -⟩ := tidy.reachable
      have twice := (List.nodup_append.mp tidy.nodup).2.2 id queued id
      exact twice ((mem_attached log).mpr attached) rfl
    obtain ⟨d, known', -, stays⟩ := becomes.known id c known
    obtain rfl := stays (.inl unattached)
    exact ⟨by rw [queues]; exact queued, _, known', rest⟩
  | attached bytes => exact seated.concluded becomes (fun _ => seated.1) (.inr (.inl rfl))
  | answered bytes => exact seated.concluded becomes (fun other => absurd rfl other) (.inr (.inr rfl))

theorem Seated.connect (seated : Seated w id seat) (queues : queue v = queue w ++ more)
    (endpoints : v.endpoints = w.endpoints)
    (connections : ∀ id : Nat, v.traffic.connections[id]? =
      if w.traffic.connections.size = id then some c else w.traffic.connections[id]?) :
    Seated v id seat := by
  have still {c' : Connection} (known : w.traffic.connections[id]? = some c') :
      v.traffic.connections[id]? = some c' := by
    obtain ⟨within, -⟩ := Array.getElem?_eq_some_iff.mp known
    rw [connections id, if_neg (Nat.ne_of_gt within), known]
  cases seat with
  | queued =>
    obtain ⟨queued, c, known, rest⟩ := seated
    exact ⟨by rw [queues]; exact List.mem_append_left _ queued, c, still known, rest⟩
  | attached bytes =>
    obtain ⟨attached, c, known, rest⟩ := seated
    exact ⟨by rw [endpoints]; exact attached, c, still known, rest⟩
  | answered bytes =>
    obtain ⟨c, type, known, rest⟩ := seated
    exact ⟨c, type, still known, rest⟩

/-- Each event has a result between two operations, and takes every connection from its seat to the
next. -/
theorem Tidy.happen (tidy : Tidy w) (event : Event) :
    ∃ v, happen w event = .ok v ∧ Tidy v ∧
      ∀ id seat, Seated w id seat → Seated v id (seat.after event) := by
  cases event with
  | awaitConnection =>
    obtain ⟨v, ran, tidy', takes, same, -⟩ := tidy.awaitConnection
    refine ⟨v, by simp only [Delivery.happen, ran, Except.map], tidy', ?_⟩
    intro id seat seated
    have kept : Becomes w.traffic v.traffic fun _ c d => Kept c d :=
      (Becomes.of_same same).mono (by rintro _ c _ - rfl; exact ⟨rfl, rfl, rfl⟩)
    rw [Seat.after_awaitConnection]
    exact seated.taken takes kept
  | broadcast value =>
    obtain ⟨tidy', -, -⟩ := tidy.broadcast (Tape.byte value)
    exact ⟨_, rfl, tidy', fun id seat seated => seated.broadcast tidy value⟩
  | read =>
    obtain ⟨tidy', takes, becomes⟩ := tidy.read
    refine ⟨_, rfl, tidy', fun id seat seated => seated.taken takes (becomes.mono ?_)⟩
    rintro _ c _ - ⟨⟨input, rfl⟩, -⟩
    exact ⟨rfl, rfl, rfl⟩
  | finishCycle =>
    obtain ⟨v, ran, tidy', -, -, queues, -, becomes⟩ := tidy.finishCycle
    exact ⟨v, ran, tidy', fun id seat seated => seated.finishCycle tidy queues becomes⟩
  | switch name =>
    obtain ⟨tidy', -, -, becomes⟩ := tidy.switch name
    refine ⟨_, rfl, tidy', fun id seat seated => ?_⟩
    rw [Seat.after_switch]
    exact seated.left becomes
  | close =>
    obtain ⟨-, tidy', -, -, becomes⟩ := tidy.close
    exact ⟨_, rfl, tidy', fun id seat seated => seated.left becomes⟩
  | connect body =>
    simp only [Seat.after_connect]
    cases opened : w.listener with
    | none => exact ⟨w, connect_unopened opened body, tidy, fun id seat seated => seated⟩
    | some listener =>
      obtain ⟨v, ran, tidy', -, endpoints, queues, connections⟩ := tidy.connect opened body
      exact ⟨v, ran, tidy', fun id seat seated => seated.connect queues endpoints connections⟩

/-! ## All events -/

theorem Tidy.run (tidy : Tidy w) (events : List Event) :
    ∃ v, run w events = .ok v ∧ Tidy v ∧
      ∀ id seat, Seated w id seat → Seated v id (events.foldl Seat.after seat) := by
  induction events generalizing w with
  | nil => exact ⟨w, rfl, tidy, fun id seat seated => seated⟩
  | cons event later ih =>
    obtain ⟨u, happened, tidy', seats⟩ := tidy.happen event
    obtain ⟨v, ran, tidy'', seats'⟩ := ih tidy'
    refine ⟨v, ?_, tidy'', fun id seat seated => seats' id _ (seats id seat seated)⟩
    rw [Delivery.run, List.foldlM_cons, happened]
    exact ran

/-- Where a connection stands while nothing has concluded it. -/
def Seat.since (events : List Event) : Seat :=
  if events.any Event.attaches then .attached (sent events) else .queued

theorem sent_of_unattached (unattached : events.any Event.attaches = false) : sent events = [] := by
  simp only [sent, List.filterMap_eq_nil_iff]
  intro event member
  have own := List.any_eq_false.mp unattached event member
  cases event with
  | broadcast value => exact absurd rfl own
  | _ => rfl

theorem since_unattached (unattached : events.any Event.attaches = false) :
    Seat.since events = .queued := by
  rw [Seat.since, unattached]
  rfl

theorem since_attached (attached : events.any Event.attaches = true) :
    Seat.since events = .attached (sent events) := by
  rw [Seat.since, if_pos attached]

theorem sent_append (events later : List Event) : sent (events ++ later) = sent events ++ sent later :=
  List.filterMap_append

/-- An event that does not conclude a connection attaches it, if anything does, and sends its byte. -/
theorem after_since (goesOn : event.concludes events = false) :
    (Seat.since events).after event = Seat.since (events ++ [event]) := by
  cases attaches : events.any Event.attaches with
  | false =>
    have nothing := sent_of_unattached attaches
    rw [since_unattached attaches, Seat.since, List.any_append, attaches, sent_append, nothing]
    cases event with
    | switch | close => simp [Event.concludes] at goesOn
    | awaitConnection | broadcast | read | finishCycle | connect => rfl
  | true =>
    rw [since_attached attaches, Seat.since, List.any_append, attaches, sent_append]
    cases event with
    | finishCycle => exact absurd (goesOn.symm.trans attaches) Bool.false_ne_true
    | switch | close => simp [Event.concludes] at goesOn
    | broadcast value => rfl
    | awaitConnection | read | connect =>
      exact congrArg Seat.attached (List.append_nil (sent events)).symm

/-- A connection that nothing has concluded waits, with the bytes sent since its client connected. -/
theorem foldl_since (unconcluded : Unconcluded (events ++ later)) :
    later.foldl Seat.after (Seat.since events) = Seat.since (events ++ later) := by
  induction later generalizing events with
  | nil => rw [List.append_nil, List.foldl_nil]
  | cons event later ih =>
    have goesOn := unconcluded events event later rfl
    rw [List.append_cons] at unconcluded ⊢
    rw [List.foldl_cons, after_since goesOn]
    exact ih unconcluded

theorem foldl_queued (unconcluded : Unconcluded later) :
    later.foldl Seat.after .queued = Seat.since later :=
  @foldl_since [] later unconcluded

theorem foldl_answered (bytes : List UInt8) (events : List Event) :
    events.foldl Seat.after (.answered bytes) = .answered bytes := by
  induction events with
  | nil => rfl
  | cons event later ih =>
    have stays : Seat.after (.answered bytes) event = .answered bytes := by cases event <;> rfl
    rw [List.foldl_cons, stays, ih]

/-- The first event that concludes a connection answers it with the bytes sent until then. -/
theorem after_concludes (concludes : event.concludes events = true) :
    (Seat.since events).after event = .answered (sent events) := by
  cases attaches : events.any Event.attaches with
  | false =>
    rw [since_unattached attaches, sent_of_unattached attaches]
    cases event with
    | finishCycle => exact absurd (attaches.symm.trans concludes) Bool.false_ne_true
    | switch | close => rfl
    | awaitConnection | broadcast | read | connect => simp [Event.concludes] at concludes
  | true =>
    rw [since_attached attaches]
    cases event with
    | finishCycle | switch | close => rfl
    | awaitConnection | broadcast | read | connect => simp [Event.concludes] at concludes

/-- Which bytes each client receives. After any events, when a client connects while a listener is
open, and whatever happens then: as long as nothing concludes its connection, it has no response; the
first event that does answers it with status 200, the length of its body, and as its body exactly the
bytes sent since it connected; and nothing changes that response. -/
theorem response_since_connect (console : Console) (session : Option Debug.Session)
    (files : Host.Files) (config : Config) (past : List Event) :
    ∃ w, run (initial console session files config).world past = .ok w ∧
      ∀ listener body later, w.listener = some listener →
        ∃ v c, run w (.connect body :: later) = .ok v ∧
          v.traffic.connections[w.traffic.connections.size]? = some c ∧
          (Unconcluded later → c.reply = none ∧ c.output.toList = sent later) ∧
          ∀ before event after, later = before ++ event :: after → Unconcluded before →
            event.concludes before = true →
              c.output.toList = sent before ∧ ∃ type, c.reply.bind Http.Reply.response? = some
                { status := 200
                  fields := [("Content-Type", type),
                    ("Content-Length", toString (sent before).length)]
                  body := sent before } := by
  obtain ⟨w, ran, tidy, -⟩ := (tidy_initial console session files config).run past
  refine ⟨w, ran, ?_⟩
  intro listener body later opened
  obtain ⟨u, connected, tidy', -, -, queues, connections⟩ := tidy.connect opened body
  obtain ⟨v, ran', -, seats⟩ := tidy'.run later
  have seated : Seated u w.traffic.connections.size .queued := by
    refine ⟨by rw [queues]; simp, { listener, input := body, stage := .waiting }, ?_, rfl, rfl, rfl⟩
    rw [connections, if_pos rfl]
  have now := seats _ _ seated
  have ran' : run w (.connect body :: later) = .ok v := by
    rw [run, List.foldlM_cons]
    simp only [happen, connected]
    exact ran'
  have known : ∃ c, v.traffic.connections[w.traffic.connections.size]? = some c := by
    revert now
    cases later.foldl Seat.after .queued with
    | queued => exact fun ⟨_, c, known, _⟩ => ⟨c, known⟩
    | attached => exact fun ⟨_, c, known, _⟩ => ⟨c, known⟩
    | answered => exact fun ⟨c, _, known, _⟩ => ⟨c, known⟩
  obtain ⟨c, known⟩ := known
  refine ⟨v, c, ran', known, ?_, ?_⟩
  · intro unconcluded
    rw [foldl_queued unconcluded] at now
    cases attaches : later.any Event.attaches with
    | false =>
      rw [since_unattached attaches] at now
      obtain ⟨-, c', known', -, unanswered, empty⟩ := now
      obtain rfl := Option.some.inj (known.symm.trans known')
      exact ⟨unanswered, empty.trans (sent_of_unattached attaches).symm⟩
    | true =>
      rw [since_attached attaches] at now
      obtain ⟨-, c', known', -, unanswered, written⟩ := now
      obtain rfl := Option.some.inj (known.symm.trans known')
      exact ⟨unanswered, written⟩
  · rintro before event after rfl unconcluded concludes
    rw [List.foldl_append, foldl_queued unconcluded, List.foldl_cons, after_concludes concludes,
      foldl_answered] at now
    obtain ⟨c', type, known', -, reply, written⟩ := now
    obtain rfl := Option.some.inj (known.symm.trans known')
    refine ⟨written, type, ?_⟩
    rw [reply]
    rfl

/-- The second client joins in the middle of a cycle. The third connects when nothing is sent any
more, so the end of the next cycle leaves it to the close. -/
example :
    (run {} [.switch "http", .connect [], .broadcast 72, .connect [], .broadcast (256 + 105),
      .finishCycle, .connect [], .finishCycle, .close]).toOption.map
        (fun w => w.traffic.connections.toList.map (·.reply)) =
      some [some (.answered "text/plain" [72, 105]),
        some (.answered "text/plain" [105]),
        some (.answered "text/plain" [])] := by
  decide +kernel

end TapeLang.Delivery

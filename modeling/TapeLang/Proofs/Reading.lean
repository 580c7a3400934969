import TapeLang.Client.Reader
import TapeLang.Proofs.Malformed
import TapeLang.Proofs.Wire

/-!
Reading does not depend on the chunks. What the reader makes of a chunk is what the transport makes of its
bytes, one after the other (`Reader.Mirrors.receive`): the buffer is the line that has begun, and the
mailbox holds the messages of the queue that were not taken yet, with the mark of the end behind them. So
the answers are the messages of the stream in order, however it is cut and whenever it is asked for them,
and after them the end for ever (`answers_in_order`).
-/
namespace TapeLang.Client

open Debug (ServerMessage Session)
open Host (Line)

/-! ## The transport -/

namespace Transport

variable {t : Transport} {bytes : List UInt8}

/-- Bytes of a line gather. -/
theorem foldl_receive_unbroken (active : t.reading = .active) (unbroken : 0xA ∉ bytes) :
    bytes.foldl receive t = { t with begun := t.begun ++ bytes } := by
  induction bytes generalizing t with
  | nil => simp
  | cons byte bytes ih =>
    obtain ⟨other, unbroken⟩ := not_or.mp (mt List.mem_cons.mpr unbroken)
    have first : t.receive byte = { t with begun := t.begun ++ [byte] } := by
      simp only [receive, active, ↓reduceIte, if_neg (Ne.symm other)]
    rw [List.foldl_cons, first, ih (by exact active) unbroken, List.append_assoc, List.singleton_append]

/-- Once reading has stopped nothing that arrives is read. -/
theorem foldl_receive_idle (idle : t.reading ≠ .active) : bytes.foldl receive t = t := by
  induction bytes with
  | nil => rfl
  | cons byte bytes ih => rw [List.foldl_cons, receive, if_neg idle, ih]

/-- Messages that arrive go behind those in the queue. -/
theorem queue_readLine (t : Transport) (line : Line) : t.queue <+: (t.readLine line).queue := by
  unfold readLine
  split
  · exact List.prefix_rfl
  · split
    · exact List.prefix_append ..
    · exact List.prefix_rfl
    · exact List.prefix_rfl

theorem queue_foldl_receive (t : Transport) (bytes : List UInt8) :
    t.queue <+: (bytes.foldl receive t).queue := by
  induction bytes generalizing t with
  | nil => exact List.prefix_rfl
  | cons byte bytes ih =>
    refine List.IsPrefix.trans ?_ (ih (t.receive byte))
    unfold receive
    split
    · split
      · exact queue_readLine { t with begun := [] } t.begun
      · exact List.prefix_rfl
    · exact List.prefix_rfl

end Transport

/-! ## The reader and the transport -/

namespace Reader

variable {r : Reader} {t : Transport} {taken : Nat} {events : List Event}

/-- A reader that has read what a transport has, with so many messages taken out of its mailbox. -/
structure Mirrors (r : Reader) (t : Transport) (taken : Nat) : Prop where
  buffer : r.buffer = t.begun
  unbroken : 0xA ∉ t.begun
  reading : r.reading = t.reading
  mailbox : r.mailbox = (t.queue.drop taken).map some ++ if t.reading = .ended then [none] else []
  bound : t.reading ≠ .ended → taken ≤ t.queue.length

/-- At the beginning. -/
theorem mirrors_start : Mirrors {} {} 0 where
  buffer := rfl
  unbroken := List.not_mem_nil
  reading := rfl
  mailbox := rfl
  bound _ := Nat.le_refl 0

/-- A line is read alike, whatever is in the buffer behind it. -/
theorem Mirrors.readLine (mirrors : Mirrors { r with buffer := [] } t taken)
    (active : t.reading = .active) (line : Line) :
    Mirrors { r.readLine line with buffer := [] } (t.readLine line) taken := by
  have going : t.reading ≠ .ended := by simp [active]
  have mailbox : r.mailbox = (t.queue.drop taken).map some := by simpa [going] using mirrors.mailbox
  have bound := mirrors.bound going
  unfold Reader.readLine Transport.readLine
  split
  · exact mirrors
  · cases ServerMessage.decode line with
    | ok message =>
      refine ⟨mirrors.buffer, mirrors.unbroken, mirrors.reading, ?_, fun _ => ?_⟩
      · simp only [mailbox, going, ↓reduceIte, List.append_nil, List.drop_append_of_le_length bound,
          List.map_append, List.map_singleton]
      · simp only [List.length_append]
        omega
    | error fault =>
      cases fault with
      | protocol => exact mirrors
      | number =>
        refine ⟨mirrors.buffer, mirrors.unbroken, rfl, ?_, fun _ => bound⟩
        simp [mailbox]

/-- A line leaves the buffer alone, unless reading stops at it. -/
theorem readLine_cases (r : Reader) (line : Line) :
    ((r.readLine line).buffer = r.buffer ∧ (r.readLine line).reading = r.reading) ∨
      ((r.readLine line).buffer = [] ∧ (r.readLine line).reading = .stuck) := by
  unfold Reader.readLine
  split
  · exact .inl ⟨rfl, rfl⟩
  · split
    · exact .inl ⟨rfl, rfl⟩
    · exact .inl ⟨rfl, rfl⟩
    · exact .inr ⟨rfl, rfl⟩

theorem drain_of_empty (empty : r.buffer = []) : r.drain = r := by
  unfold Reader.drain
  split
  next => rfl
  next split => simp [empty, splitLine?] at split

/-- Reading the lines of the buffer is receiving its bytes. -/
theorem Mirrors.drain (mirrors : Mirrors { r with buffer := [] } t taken) (active : t.reading = .active) :
    r.drain.Mirrors (r.buffer.foldl Transport.receive t) taken := by
  fun_induction Reader.drain r generalizing t with
  | case1 r whole =>
    have none : t.begun = [] := mirrors.buffer.symm
    have unbroken := splitLine?_eq_none whole
    rw [Transport.foldl_receive_unbroken active unbroken, none]
    exact ⟨rfl, unbroken, mirrors.reading, mirrors.mailbox, mirrors.bound⟩
  | case2 r line rest split ih =>
    have none : t.begun = [] := mirrors.buffer.symm
    obtain ⟨whole, unbroken⟩ := eq_of_splitLine? split
    have first : (line ++ [0xA]).foldl Transport.receive t = t.readLine line := by
      have cleared : { t with begun := [] } = t := by rw [← none]
      rw [Transport.receive_line active unbroken, cleared, none, List.nil_append]
    rw [whole, List.append_cons, List.foldl_append, first]
    have after := Mirrors.readLine (r := { r with buffer := rest }) mirrors active line
    rcases readLine_cases { r with buffer := rest } line with ⟨buffer, reading⟩ | ⟨buffer, reading⟩
    · have goesOn : (t.readLine line).reading = .active :=
        after.reading.symm.trans (reading.trans (mirrors.reading.trans active))
      have later := ih after goesOn
      rwa [buffer] at later
    · have stopped : (t.readLine line).reading ≠ .active := by
        rw [← after.reading, reading]
        exact Reading.noConfusion
      rw [drain_of_empty buffer, Transport.foldl_receive_idle stopped]
      rwa [← buffer] at after

/-- A chunk is received as its bytes are, one after the other. -/
theorem Mirrors.receive (mirrors : r.Mirrors t taken) {chunk : List UInt8} (nonempty : chunk ≠ []) :
    (r.receive chunk).Mirrors (chunk.foldl Transport.receive t) taken := by
  unfold Reader.receive
  rw [if_neg nonempty]
  by_cases active : t.reading = .active
  · rw [if_pos (mirrors.reading.trans active)]
    have cleared : Mirrors { r with buffer := [] } { t with begun := [] } taken :=
      ⟨rfl, List.not_mem_nil, mirrors.reading, mirrors.mailbox, mirrors.bound⟩
    have again : r.buffer.foldl Transport.receive { t with begun := [] } = t := by
      rw [mirrors.buffer, Transport.foldl_receive_unbroken (by exact active) mirrors.unbroken,
        List.nil_append]
    have drained := Mirrors.drain (r := { r with buffer := r.buffer ++ chunk }) cleared active
    rwa [List.foldl_append, again] at drained
  · rw [if_neg (mirrors.reading ▸ active), Transport.foldl_receive_idle active]
    exact mirrors

theorem Mirrors.finish (mirrors : r.Mirrors t taken) : r.finish.Mirrors t.finish taken := by
  unfold Reader.finish Transport.finish
  rw [mirrors.reading]
  by_cases active : t.reading = .active
  · rw [if_pos active, if_pos active]
    have mailbox := mirrors.mailbox
    rw [active] at mailbox
    refine ⟨mirrors.buffer, mirrors.unbroken, rfl, ?_, by simp⟩
    simp [mailbox]
  · rw [if_neg active, if_neg active]
    exact mirrors

/-- An answer is the next message of the queue, or the end behind the last one. There is none only while
every message has been taken and more may come. -/
theorem Mirrors.next (mirrors : r.Mirrors t taken) :
    (r.next.1 = some t.queue[taken]? ∧ r.next.2.Mirrors t (taken + 1) ∧
      (taken < t.queue.length ∨ t.reading = .ended)) ∨
    (r.next = (none, r) ∧ taken = t.queue.length ∧ t.reading ≠ .ended) := by
  have mailbox := mirrors.mailbox
  by_cases more : taken < t.queue.length
  · have first : t.queue.drop taken = t.queue[taken] :: t.queue.drop (taken + 1) :=
      List.drop_eq_getElem_cons more
    rw [first, List.map_cons, List.cons_append] at mailbox
    left
    simp only [Reader.next, mailbox, List.getElem?_eq_getElem more, true_and]
    exact ⟨⟨mirrors.buffer, mirrors.unbroken, mirrors.reading, rfl, fun _ => more⟩, .inl more⟩
  · have past : t.queue.length ≤ taken := Nat.le_of_not_lt more
    rw [List.drop_eq_nil_of_le past, List.map_nil, List.nil_append] at mailbox
    by_cases ended : t.reading = .ended
    · rw [if_pos ended] at mailbox
      left
      simp only [Reader.next, mailbox, List.getElem?_eq_none past, true_and]
      refine ⟨⟨mirrors.buffer, mirrors.unbroken, mirrors.reading, ?_, fun going => absurd ended going⟩,
        .inr ended⟩
      simp [ended, Nat.le_succ_of_le past]
    · rw [if_neg ended] at mailbox
      right
      exact ⟨by simp [Reader.next, mailbox], Nat.le_antisymm (mirrors.bound ended) past, ended⟩

/-- A question has to wait only when every message has been taken. -/
theorem Mirrors.waits_iff (mirrors : r.Mirrors t taken) (going : t.reading ≠ .ended) :
    r.next.1 = none ↔ taken = t.queue.length := by
  rcases mirrors.next with ⟨answer, -, more | ended⟩ | ⟨waits, all, -⟩
  · constructor
    · intro none
      simp [answer] at none
    · intro all
      exact absurd all (Nat.ne_of_lt more)
  · exact absurd ended going
  · simp [waits, all]

/-! ## Runs -/

/-- What a transport makes of an event. -/
def Event.reach (t : Transport) : Event → Transport
  | .arrive chunk => if chunk = [] then t.finish else chunk.foldl Transport.receive t
  | .fail => t.finish
  | .take => t

theorem queue_finish (t : Transport) : t.finish.queue = t.queue := by
  unfold Transport.finish
  split <;> rfl

theorem queue_reach (t : Transport) (event : Event) : t.queue <+: (event.reach t).queue := by
  cases event with
  | arrive chunk =>
    rw [Event.reach]
    split
    · exact queue_finish t ▸ List.prefix_rfl
    · exact t.queue_foldl_receive chunk
  | fail => exact queue_finish t ▸ List.prefix_rfl
  | take => exact List.prefix_rfl

theorem queue_foldl_reach (t : Transport) (events : List Event) :
    t.queue <+: (events.foldl Event.reach t).queue := by
  induction events generalizing t with
  | nil => exact List.prefix_rfl
  | cons event events ih => exact (queue_reach t event).trans (ih _)

/-- Nothing happens to a transport that reads no more. -/
theorem foldl_reach_idle (idle : t.reading ≠ .active) (events : List Event) :
    events.foldl Event.reach t = t := by
  have finished : t.finish = t := if_neg idle
  induction events with
  | nil => rfl
  | cons event events ih =>
    have same : event.reach t = t := by
      cases event with
      | arrive chunk =>
        by_cases empty : chunk = []
        · rw [Event.reach, if_pos empty, finished]
        · rw [Event.reach, if_neg empty, Transport.foldl_receive_idle idle]
      | fail => exact finished
      | take => rfl
    rw [List.foldl_cons, same, ih]

theorem Mirrors.happen (mirrors : r.Mirrors t taken) {event : Event} (other : event ≠ .take) :
    (r.happen event).1 = none ∧ (r.happen event).2.Mirrors (event.reach t) taken := by
  cases event with
  | arrive chunk =>
    refine ⟨rfl, ?_⟩
    by_cases empty : chunk = []
    · simp only [Reader.happen, Reader.receive, Event.reach, empty, ↓reduceIte]
      exact mirrors.finish
    · simp only [Event.reach, empty, ↓reduceIte]
      exact mirrors.receive empty
  | fail => exact ⟨rfl, mirrors.finish⟩
  | take => exact absurd rfl other

theorem run_silent {event : Event} (silent : (r.happen event).1 = none) (events : List Event) :
    r.run (event :: events) = (r.happen event).2.run events := by
  simp [Reader.run, silent]

theorem run_take {answer : Option ServerMessage} (answered : r.next.1 = some answer)
    (events : List Event) :
    r.run (.take :: events) = (answer :: (r.next.2.run events).1, (r.next.2.run events).2) := by
  simp [Reader.run, Reader.happen, answered]

/-- The answers of a run are what comes next in the queue, one after the other. -/
theorem Mirrors.run (mirrors : r.Mirrors t taken) (events : List Event) :
    (r.run events).2.Mirrors (events.foldl Event.reach t) (taken + (r.run events).1.length) ∧
      (r.run events).1 = (List.range (r.run events).1.length).map fun k =>
        (events.foldl Event.reach t).queue[taken + k]? := by
  induction events generalizing r t taken with
  | nil => exact ⟨mirrors, rfl⟩
  | cons event events ih =>
    rw [List.foldl_cons]
    by_cases take : event = .take
    · subst take
      rcases mirrors.next with ⟨answer, after, more⟩ | ⟨waits, -, -⟩
      · obtain ⟨final, answers⟩ := ih after
        have later : (events.foldl Event.reach t).queue[taken]? = t.queue[taken]? := by
          rcases more with more | ended
          · obtain ⟨new, same⟩ := queue_foldl_reach t events
            rw [← same, List.getElem?_append_left more]
          · rw [foldl_reach_idle (by simp [ended])]
        rw [run_take answer]
        refine ⟨by simpa [Event.reach, Nat.add_assoc, Nat.add_comm 1] using final, ?_⟩
        rw [List.length_cons, List.range_succ_eq_map, List.map_cons, List.map_map]
        refine congrArg₂ List.cons later.symm (answers.trans ?_)
        apply List.map_congr_left
        intro k _
        simp [Event.reach, Nat.add_assoc, Nat.add_comm 1]
      · have step : r.run (.take :: events) = r.run events := by
          simp [Reader.run, Reader.happen, waits]
        rw [step]
        exact ih mirrors
    · obtain ⟨silent, after⟩ := mirrors.happen take
      rw [run_silent silent]
      exact ih after

/-- Once the connection has ended every question is answered. -/
theorem Mirrors.length_run (mirrors : r.Mirrors t taken) (ended : t.reading = .ended) :
    (r.run events).1.length = events.count .take := by
  induction events generalizing r taken with
  | nil => rfl
  | cons event events ih =>
    by_cases take : event = .take
    · subst take
      rcases mirrors.next with ⟨answer, after, -⟩ | ⟨-, -, going⟩
      · rw [run_take answer, List.length_cons, ih after, List.count_cons_self]
      · exact absurd ended going
    · obtain ⟨silent, after⟩ := mirrors.happen take
      have idle : event.reach t = t := foldl_reach_idle (by simp [ended]) [event]
      rw [run_silent silent, ih (idle ▸ after), List.count_cons_of_ne take]

/-! ## Streams -/

/-- The bytes that an event brings. -/
def Event.bytes : Event → List UInt8
  | .arrive chunk => chunk
  | _ => []

/-- The events that a connection ends with: an empty chunk, or a read that fails. -/
def Event.Ends : Event → Prop
  | .arrive chunk => chunk = []
  | .fail => True
  | .take => False

instance : DecidablePred Event.Ends
  | .arrive chunk => inferInstanceAs (Decidable (chunk = []))
  | .fail => .isTrue trivial
  | .take => .isFalse id

/-- Before the end a transport is reached by the bytes alone, whatever the chunks are. -/
theorem foldl_reach_live (live : ∀ event ∈ events, ¬ event.Ends) (t : Transport) :
    events.foldl Event.reach t = (events.flatMap Event.bytes).foldl Transport.receive t := by
  induction events generalizing t with
  | nil => rfl
  | cons event events ih =>
    have first : event.reach t = event.bytes.foldl Transport.receive t := by
      have going := live event (by simp)
      cases event with
      | arrive chunk => exact if_neg going
      | fail => exact absurd trivial going
      | take => rfl
    rw [List.foldl_cons, ih (fun event member => live event (by simp [member])), first,
      List.flatMap_cons, List.foldl_append]

theorem reach_ends {ending : Event} (ends : ending.Ends) (t : Transport) : ending.reach t = t.finish := by
  cases ending with
  | arrive chunk => exact if_pos ends
  | fail => rfl
  | take => exact ends.elim

/-- After the end every question is answered: with the messages that are left, and then with the end. -/
theorem Mirrors.run_ending {ending : Event} (mirrors : r.Mirrors t taken) (active : t.reading = .active)
    (ends : ending.Ends) (after : List Event) :
    (r.run (ending :: after)).1 =
      (List.range (after.count .take)).map fun k => t.queue[taken + k]? := by
  have ended : t.finish.reading = .ended := by simp [Transport.finish, active]
  have other : ending ≠ .take := by
    rintro rfl
    exact ends
  obtain ⟨silent, closing⟩ := mirrors.happen other
  rw [reach_ends ends] at closing
  obtain ⟨-, answers⟩ := closing.run after
  rw [foldl_reach_idle (by simp [ended]), queue_finish, closing.length_run ended] at answers
  rw [run_silent silent, answers]

end Reader

namespace Transport

variable {m : ServerMessage}

/-- The line of a message that is sent gives that message. -/
theorem message?_lineOf (sound : m.Sound) :
    message? (Debug.lineOf m.fields) = some m ∧ IsPassed (Debug.lineOf m.fields) ∧
      0xA ∉ Debug.lineOf m.fields := by
  have full : Session.isBlankLine (Debug.lineOf m.fields) = false := by
    simpa using Debug.not_blank_lineOf m.fields []
  have decoded := (ServerMessage.decode_encode sound).1
  refine ⟨?_, .inr (.inl ⟨m, decoded⟩), Debug.newline_not_mem_lineOf sound.readable⟩
  simp [message?, full, decoded, Except.toOption]

end Transport

/-- A stream of lines that reading goes on after, and the beginning of a last one. However it is cut into
chunks, and whenever the reader is asked, the answers are the messages of the complete lines, in order and
once each. A question waits only when all of them were taken and the stream has not ended; after the end
every question is answered, first with the messages that are left and then with the end for ever. -/
theorem answers_in_order {lines : List Line} {begun : Line} {before after : List Reader.Event}
    {ending : Reader.Event} (unbroken : ∀ line ∈ lines, 0xA ∉ line)
    (passed : ∀ line ∈ lines, Transport.IsPassed line) (short : 0xA ∉ begun)
    (live : ∀ event ∈ before, ¬ event.Ends)
    (cut : before.flatMap Reader.Event.bytes = lines.flatMap (· ++ [0xA]) ++ begun)
    (ends : ending.Ends) :
    let messages := lines.filterMap Transport.message?
    let early := (({} : Reader).run before).1
    let reader := (({} : Reader).run before).2
    let late := (reader.run (ending :: after)).1
    early = (messages.take early.length).map some ∧
      (reader.next.1 = none ↔ early.length = messages.length) ∧
      late = (List.range (after.count .take)).map fun k => messages[early.length + k]? := by
  intro messages early reader late
  have read : before.foldl Reader.Event.reach {} = ({ begun, queue := messages } : Transport) := by
    have complete := Transport.receive_lines (t := {}) rfl rfl unbroken passed
    rw [Reader.foldl_reach_live live, cut, List.foldl_append, complete,
      Transport.foldl_receive_unbroken rfl short]
    rfl
  obtain ⟨mirrors, answers⟩ := Reader.mirrors_start.run before
  rw [read, Nat.zero_add] at mirrors
  rw [read] at answers
  refine ⟨?_, mirrors.waits_iff (by simp), mirrors.run_ending rfl ends after⟩
  have bound : early.length ≤ messages.length := mirrors.bound (by simp)
  have length : early.length = min early.length messages.length := (Nat.min_eq_left bound).symm
  have lengths : ((List.range early.length).map (messages[·]?)).length =
      ((messages.take early.length).map some).length := by
    rw [List.length_map, List.length_range, List.length_map, List.length_take]
    exact length
  have asked : early = (List.range early.length).map (messages[·]?) := by
    simpa only [Nat.zero_add] using answers
  refine asked.trans (List.ext_getElem lengths fun k more _ => ?_)
  have more : k < messages.length := by
    simp only [List.length_map, List.length_range] at more
    exact Nat.lt_of_lt_of_le more bound
  simp [more]

/-- Two messages with a blank line and a line of no UTF-8 between them, cut inside the first message and
before a line break, and the beginning of a line that is never complete. -/
theorem answers_in_order_cut :
    let first : ServerMessage := .exit 3
    let second := ServerMessage.ofBytes [0x0A] Debug.stdErr
    let before : List Reader.Event :=
      [.take, .arrive (Text.Utf8.encodeString "\x7b\"co"),
        .arrive (Text.Utf8.encodeString "de\":3,\"type\":\"exit\"\x7d\n \r"), .take,
        .arrive ([0xA, 0xFF, 0xA] ++ Text.Utf8.encodeString "\x7b\"value\":\"\\"),
        .arrive (Text.Utf8.encodeString "n\",\"type\":\"std-err\"\x7d\n\x7b")]
    let early := (({} : Reader).run before).1
    let reader := (({} : Reader).run before).2
    early = ([first, second].take early.length).map some ∧
      (reader.next.1 = none ↔ early.length = 2) ∧
      (reader.run [.arrive [], .take, .take, .take]).1 =
        (List.range 3).map fun k => [first, second][early.length + k]? := by
  intro first second before
  have exit : first.Sound := Json.isShort_of_natAbs_lt 1 (by decide) (by decide)
  obtain ⟨said, passed, unbroken⟩ := Transport.message?_lineOf exit
  obtain ⟨said', passed', unbroken'⟩ :=
    Transport.message?_lineOf (ServerMessage.sound_ofBytes [0x0A] (.inr rfl))
  have blank : Session.isBlankLine [0x20, 0xD] = true := by decide
  have malformed : ServerMessage.decode [0xFF] = .error (.protocol (.encoding ⟨.invalidStart, 0, 1, 0xFF⟩)) :=
    rfl
  have complete := @answers_in_order
    [Debug.lineOf first.fields, [0x20, 0xD], [0xFF], Debug.lineOf second.fields] [0x7B] before
    [.take, .take, .take] (.arrive [])
  simp only [List.forall_mem_cons, List.not_mem_nil, false_implies, implies_true, and_true] at complete
  have messages : [Debug.lineOf first.fields, [0x20, 0xD], [0xFF], Debug.lineOf second.fields].filterMap
      Transport.message? = [first, second] := by
    have silent : Transport.message? [0x20, 0xD] = none := by simp [Transport.message?, blank]
    have silent' : Transport.message? [0xFF] = none := by
      simp [Transport.message?, malformed, Except.toOption]
    simp only [List.filterMap_cons, said, silent, silent', second, said', List.filterMap_nil]
  rw [messages] at complete
  exact complete ⟨unbroken, by decide, by decide, unbroken'⟩
    ⟨passed, .inl blank, .inr (.inr ⟨_, malformed⟩), passed'⟩ (by decide)
    (by simp only [before]; decide) (by decide +kernel) rfl

end TapeLang.Client

import Mathlib.Data.List.Basic
import TapeLang.Proofs.Dialogue.Serving

/-!
The client's side of a dialogue. Lines that arrive byte by byte give the messages that were sent
(`Client.Follows.receive`), and the client takes them one by one. It sends a command only once it has
seen a halt for every command before, and so the halts that it has seen and the commands that it has
sent are counted against each other (`Client.Follows.take`, `Client.Follows.undertake`).
-/
namespace TapeLang

open Client (Activity Context Control Halt Transport)
open Debug (ServerMessage)

/-! ## Lines -/

section Lines

variable {α : Type} {body : α → List UInt8} {begun more : List UInt8} {items : List α}

/-- What two byte sequences have before their first line break. -/
theorem before_newline {line line' more more' : List UInt8} (unbroken : 0xA ∉ line)
    (unbroken' : 0xA ∉ line') (same : line ++ 0xA :: more = line' ++ 0xA :: more') :
    line = line' ∧ more = more' := by
  induction line generalizing line' with
  | nil =>
    cases line' with
    | nil => exact ⟨rfl, List.tail_eq_of_cons_eq same⟩
    | cons byte rest =>
      obtain ⟨rfl, -⟩ := List.cons.inj same
      exact absurd List.mem_cons_self unbroken'
  | cons byte rest ih =>
    cases line' with
    | nil =>
      obtain ⟨rfl, -⟩ := List.cons.inj same
      exact absurd List.mem_cons_self unbroken
    | cons byte' rest' =>
      obtain ⟨rfl, later⟩ := List.cons.inj same
      obtain ⟨rfl, rfl⟩ := ih (fun member => unbroken (List.mem_cons_of_mem _ member))
        (fun member => unbroken' (List.mem_cons_of_mem _ member)) later
      exact ⟨rfl, rfl⟩

/-- The line break that comes next ends the first line. -/
theorem line_ends (unbroken : 0xA ∉ begun) (lines : ∀ item ∈ items, 0xA ∉ body item)
    (same : begun ++ 0xA :: more = items.flatMap fun item => body item ++ [0xA]) :
    ∃ item later, items = item :: later ∧ begun = body item ∧
      more = later.flatMap fun item => body item ++ [0xA] := by
  cases items with
  | nil => simp at same
  | cons item later =>
    rw [List.flatMap_cons, List.append_assoc, List.singleton_append] at same
    obtain ⟨line, rest⟩ := before_newline unbroken (lines item List.mem_cons_self) same
    exact ⟨item, later, rfl, line, rest⟩

/-- When nothing is on its way no line has begun. -/
theorem nothing_comes (unbroken : 0xA ∉ begun)
    (same : begun ++ [] = items.flatMap fun item => body item ++ [0xA]) : items = [] := by
  cases items with
  | nil => rfl
  | cons item later =>
    rw [List.append_nil, List.flatMap_cons, List.append_assoc] at same
    exact absurd (by simp [same]) unbroken

end Lines

/-! ## What the client knows -/

namespace Client

/-- The snapshot of a pause. -/
def Halt.snapshot? : Halt → Option Debug.Snapshot
  | .paused snapshot => some snapshot
  | .exited _ => none

/-- The code of an exit. -/
def Halt.code? : Halt → Option Int
  | .paused _ => none
  | .exited code => some code

/-- What is known of a program after the last halt that was seen. -/
structure Context.Knows (c : Context) (last : Option Halt) : Prop where
  state : c.lastState = last.bind Halt.snapshot?
  code : c.exitCode = last.bind Halt.code?

variable {c : Context} {last : Option Halt} {message : ServerMessage} {halt : Halt}

/-- Taking note of a message leaves the connection alone. -/
theorem Context.transport_note (c : Context) (message : ServerMessage) :
    (c.note message).transport = c.transport := by
  cases message <;> rfl

theorem Context.Knows.pass (knows : c.Knows last) (silent : Halt.ofMessage? message = none) :
    (c.note message).Knows last ∧ (c.note message).exitCode = c.exitCode := by
  cases message with
  | metadata | stream => exact ⟨⟨knows.state, knows.code⟩, rfl⟩
  | state | exit => simp [Halt.ofMessage?] at silent

theorem Context.knows_note (going : c.exitCode = none) (tells : Halt.ofMessage? message = some halt) :
    (c.note message).Knows (some halt) := by
  cases message with
  | metadata | stream => simp [Halt.ofMessage?] at tells
  | state | exit =>
    obtain rfl := Option.some.inj tells
    exact ⟨rfl, by simp [Context.note, Halt.code?, going]⟩

/-- How many halts were seen in an activity where so many commands were sent. -/
def Activity.Fits (seen sent : Nat) (code : Option Int) : Activity → Prop
  | .idle => seen = sent + 1
  | .connecting control => seen = 0 ∧ sent = 0 ∧ control.problem? = none
  | .waiting _ => seen = sent ∧ code = none

/-- A connection over which a client was told so much, with the part that was taken and the part that
has not arrived. `closed` says that nothing will come any more. -/
structure Context.Receives (c : Context) (told : List ServerMessage) (coming : List UInt8) (closed : Prop)
    (transport : Transport) (taken rest : List ServerMessage) : Prop where
  joined : c.transport = some transport
  parts : told = taken ++ transport.queue ++ rest
  unbroken : 0xA ∉ transport.begun
  lines : transport.begun ++ coming = rest.flatMap ServerMessage.encode
  reading : transport.reading = .active ∨ transport.reading = .ended ∧ closed
  knows : c.Knows (Debug.lastHalt? taken)

namespace Context

variable {told taken rest : List ServerMessage} {coming : List UInt8} {closed : Prop}
  {transport : Transport}

theorem Receives.active (receives : c.Receives told coming closed transport taken rest)
    (goesOn : ¬ closed) : transport.reading = .active := by
  rcases receives.reading with active | ⟨-, ended⟩
  · exact active
  · exact absurd ended goesOn

/-- When nothing is on its way, everything has arrived. -/
theorem Receives.arrived (receives : c.Receives told [] closed transport taken rest) : rest = [] := by
  have lines : transport.begun ++ [] =
      rest.flatMap fun message => Debug.lineOf message.fields ++ [0xA] := receives.lines
  exact nothing_comes receives.unbroken lines

/-- A byte arrives. -/
theorem Receives.receive {byte : UInt8}
    (receives : c.Receives told (byte :: coming) closed transport taken rest) (goesOn : ¬ closed)
    (sound : ∀ message ∈ told, message.Sound) (closed' : Prop) : ∃ rest',
      Receives { c with transport := some (transport.receive byte) } told coming closed'
        (transport.receive byte) taken rest' := by
  have active := receives.active goesOn
  have knows : Knows { c with transport := some (transport.receive byte) }
      (Debug.lastHalt? taken) := ⟨receives.knows.state, receives.knows.code⟩
  by_cases ends : byte = 0xA
  · subst ends
    have lines : ∀ message ∈ rest, 0xA ∉ Debug.lineOf message.fields := by
      intro message member
      exact Debug.newline_not_mem_lineOf (sound message (by simp [receives.parts, member])).readable
    obtain ⟨message, later, rfl, line, more⟩ := line_ends receives.unbroken lines receives.lines
    have sound' : message.Sound := sound message (by simp [receives.parts])
    have received : transport.receive 0xA =
        { transport with begun := [], queue := transport.queue ++ [message] } := by
      have full : Debug.Session.isBlankLine (Debug.lineOf message.fields) = false := by
        simpa using Debug.not_blank_lineOf message.fields []
      simp only [Transport.receive, active, Transport.readLine, line, full,
        (ServerMessage.decode_encode sound').1, Bool.false_eq_true, ↓reduceIte]
    refine ⟨later, rfl, ?_, ?_, ?_, ?_, knows⟩
    · rw [received, receives.parts]
      simp
    · rw [received]
      simp
    · rw [received]
      exact more
    · rw [received]
      exact .inl active
  · have received : transport.receive byte =
        { transport with begun := transport.begun ++ [byte] } := by
      simp only [Transport.receive, active, ends, ↓reduceIte]
    refine ⟨rest, rfl, ?_, ?_, ?_, ?_, knows⟩
    · rw [received]
      exact receives.parts
    · rw [received]
      simpa [receives.unbroken] using Ne.symm ends
    · rw [received]
      simpa using receives.lines
    · rw [received]
      exact .inl active

/-- More is said. -/
theorem Receives.more (receives : c.Receives told coming closed transport taken rest)
    (goesOn : ¬ closed) (said : List ServerMessage) (closed' : Prop) :
    c.Receives (told ++ said) (coming ++ said.flatMap ServerMessage.encode) closed' transport taken
      (rest ++ said) := by
  refine ⟨receives.joined, ?_, receives.unbroken, ?_, .inl (receives.active goesOn), receives.knows⟩
  · rw [receives.parts, List.append_assoc]
  · rw [← List.append_assoc, receives.lines, List.flatMap_append]

/-- The connection ends. -/
theorem Receives.finish (receives : c.Receives told coming closed transport taken rest) (ended : closed) :
    Receives { c with transport := some transport.finish } told coming closed transport.finish taken
      rest := by
  have kept : transport.finish.queue = transport.queue ∧ transport.finish.begun = transport.begun := by
    unfold Transport.finish
    split <;> exact ⟨rfl, rfl⟩
  have reading : transport.finish.reading = .ended := by
    unfold Transport.finish
    rcases receives.reading with active | ⟨stopped, -⟩
    · simp [active]
    · simp [stopped]
  refine ⟨rfl, ?_, ?_, ?_, .inr ⟨reading, ended⟩, ⟨receives.knows.state, receives.knows.code⟩⟩
  · rw [kept.1, receives.parts]
  · rw [kept.2]
    exact receives.unbroken
  · rw [kept.2, receives.lines]

/-- A message is taken. -/
theorem Receives.note {later : List ServerMessage}
    (receives : c.Receives told coming closed transport taken rest)
    (first : transport.queue = message :: later)
    (known : (c.note message).Knows (Debug.lastHalt? (taken ++ [message]))) :
    ({ c with transport := some { transport with queue := later } }.note message).Receives told coming
      closed { transport with queue := later } (taken ++ [message]) rest := by
  refine ⟨transport_note _ _, ?_, receives.unbroken, receives.lines, receives.reading, ?_⟩
  · rw [receives.parts, first]
    simp
  · cases message <;> exact ⟨known.state, known.code⟩

end Context

/-- A connected client that has sent so many commands. -/
structure Follows (c : Client) (told : List ServerMessage) (coming : List UInt8) (sent : Nat)
    (closed : Prop) (transport : Transport) (taken rest : List ServerMessage) : Prop where
  receives : c.context.Receives told coming closed transport taken rest
  fits : c.activity.Fits (taken.filterMap Halt.ofMessage?).length sent c.context.exitCode

variable {c c' : Client} {told taken rest : List ServerMessage} {coming : List UInt8} {sent : Nat}
  {closed : Prop} {transport : Transport} {control : Control}

/-- What a step of the client comes to: it may have sent a command. -/
def Proceeds (c c' : Client) (told : List ServerMessage) (coming : List UInt8) (sent : Nat)
    (closed : Prop) (rest : List ServerMessage) : Prop :=
  ∃ (more : List Control) (transport : Transport) (taken : List ServerMessage),
    (∀ control ∈ more, control.problem? = none) ∧
      c'.sent = c.sent ++ more.flatMap (·.command.encode) ∧
      c'.Follows told coming (sent + more.length) closed transport taken rest

theorem Follows.proceeds (follows : c'.Follows told coming sent closed transport taken rest)
    (same : c'.sent = c.sent) : c.Proceeds c' told coming sent closed rest :=
  ⟨[], transport, taken, by simp, by simpa using same, follows⟩

/-- A command is sent only while the program has not come to its end. -/
theorem send_cases (c : Client) (control : Control) :
    (∃ reply, c.send control = { c with activity := .idle, reply }) ∨
      c.context.exitCode = none ∧ c.send control =
        { c with activity := .waiting control, sent := c.sent ++ control.command.encode } := by
  unfold send fail
  split
  · exact .inl ⟨_, rfl⟩
  next going =>
    split
    · split
      · exact .inr ⟨going, rfl⟩
      · exact .inl ⟨_, rfl⟩
    · exact .inl ⟨_, rfl⟩

/-- A client that has seen a halt for every command may send the next one. -/
theorem proceeds_send (receives : c'.context.Receives told coming closed transport taken rest)
    (seen : (taken.filterMap Halt.ofMessage?).length = sent + 1) (same : c'.sent = c.sent)
    (accepted : control.problem? = none) :
    c.Proceeds (c'.send control) told coming sent closed rest := by
  rcases c'.send_cases control with ⟨reply, failed⟩ | ⟨going, went⟩
  · rw [failed]
    exact Follows.proceeds ⟨receives, seen⟩ same
  · rw [went]
    refine ⟨[control], transport, taken, by simpa using accepted, by simp [same], receives, ?_⟩
    exact ⟨seen, going⟩

theorem take_idle (idle : c.activity = .idle) : c.take = c := by
  unfold take
  simp only [idle]

/-- Taking a message while nothing has arrived. -/
theorem Follows.take_empty (follows : c.Follows told coming sent closed transport taken rest)
    (busy : c.activity ≠ .idle) (empty : transport.queue = [])
    (ends : closed → coming = [] ∧ ∃ code, Debug.lastHalt? told = some (.exited code)) : c.take = c := by
  obtain ⟨receives, fits⟩ := follows
  rcases receives.reading with active | ⟨-, ended⟩
  · have awaited : c.context.await = (c.context, .waiting) := by
      simp [Context.await, receives.joined, empty, active]
    unfold take
    simp only [awaited]
    split <;> rfl
  · -- the exit was seen before, so no command is waiting
    obtain ⟨rfl, code, last⟩ := ends ended
    have all : told = taken := by simpa [empty, receives.arrived] using receives.parts
    rw [all] at last
    have known := receives.knows.code
    rw [last] at known
    have some : 0 < (taken.filterMap Halt.ofMessage?).length := by
      refine List.length_pos_iff.mpr fun none => ?_
      simp [Debug.lastHalt?, none] at last
    cases activity : c.activity with
    | idle => exact absurd activity busy
    | connecting control =>
      rw [activity] at fits
      have none := fits.1
      omega
    | waiting control =>
      rw [activity] at fits
      rw [fits.2] at known
      simp [Halt.code?] at known

/-- The client takes a message, if a command waits for one. -/
theorem Follows.take (follows : c.Follows told coming sent closed transport taken rest)
    (ends : closed → coming = [] ∧ ∃ code, Debug.lastHalt? told = some (.exited code)) :
    c.Proceeds c.take told coming sent closed rest := by
  by_cases idle : c.activity = .idle
  · rw [take_idle idle]
    exact follows.proceeds rfl
  cases queue : transport.queue with
  | nil =>
    rw [follows.take_empty idle queue ends]
    exact follows.proceeds rfl
  | cons message later =>
    obtain ⟨receives, fits⟩ := follows
    let context := { c.context with transport := some { transport with queue := later } }.note message
    cases tells : Halt.ofMessage? message with
    | none =>
      have awaited : c.context.await = (context, .waiting) := by
        simp only [Context.await, receives.joined, queue, tells, context]
      have waits : c.take = { c with context } := by
        unfold Client.take
        simp only [awaited]
        split
        next idle' => exact absurd idle' idle
        · rfl
        · rfl
      have silent : (taken ++ [message]).filterMap Halt.ofMessage? =
          taken.filterMap Halt.ofMessage? := by
        simp [tells]
      obtain ⟨knows, code⟩ := receives.knows.pass tells
      have last : Debug.lastHalt? (taken ++ [message]) = Debug.lastHalt? taken := by
        rw [Debug.lastHalt?, silent, Debug.lastHalt?]
      have receives' := receives.note queue (last ▸ knows)
      rw [waits]
      refine Follows.proceeds ⟨receives', ?_⟩ rfl
      rw [silent]
      have kept : context.exitCode = c.context.exitCode := by
        rw [← code]
        cases message <;> rfl
      rw [kept]
      exact fits
    | some halt =>
      have awaited : c.context.await = (context, .halt halt) := by
        simp only [Context.await, receives.joined, queue, tells, context]
      have going : c.context.exitCode = none := by
        cases activity : c.activity with
        | idle => exact absurd activity idle
        | connecting control =>
          rw [activity] at fits
          have none := List.eq_nil_of_length_eq_zero fits.1
          rw [receives.knows.code, Debug.lastHalt?, none]
          rfl
        | waiting control =>
          rw [activity] at fits
          exact fits.2
      have known : (c.context.note message).Knows (Debug.lastHalt? (taken ++ [message])) := by
        rw [Debug.lastHalt?_append taken tells]
        exact Context.knows_note going tells
      have receives' := receives.note queue known
      have seen : ((taken ++ [message]).filterMap Halt.ofMessage?).length =
          (taken.filterMap Halt.ofMessage?).length + 1 := by
        simp [tells]
      cases activity : c.activity with
      | idle => exact absurd activity idle
      | connecting control =>
        rw [activity] at fits
        obtain ⟨none, rfl, accepted⟩ := fits
        have sends : c.take = Client.send { c with context } control := by
          unfold Client.take
          simp only [awaited, activity]
        rw [sends]
        exact proceeds_send receives' (by rw [seen, none]) rfl accepted
      | waiting control =>
        rw [activity] at fits
        obtain ⟨rfl, -⟩ := fits
        have answers : c.take = answered { c with context } (.ofHalt halt) := by
          unfold Client.take
          simp only [awaited, activity]
        rw [answers]
        have shown : context.takeOutput.2.Receives told coming closed
            { transport with queue := later } (taken ++ [message]) rest :=
          ⟨receives'.joined, receives'.parts, receives'.unbroken, receives'.lines,
            receives'.reading, ⟨receives'.knows.state, receives'.knows.code⟩⟩
        exact Follows.proceeds ⟨shown, seen⟩ rfl

/-- The client undertakes a command. -/
theorem Follows.undertake (follows : c.Follows told coming sent closed transport taken rest)
    (idle : c.activity = .idle) (control : Control) :
    c.Proceeds (c.undertake control) told coming sent closed rest := by
  obtain ⟨receives, fits⟩ := follows
  rw [idle] at fits
  unfold Client.undertake
  split
  · exact Follows.proceeds ⟨receives, by rw [idle]; exact fits⟩ rfl
  next accepted =>
    simp only [receives.joined]
    exact proceeds_send receives fits rfl accepted

end Client
end TapeLang

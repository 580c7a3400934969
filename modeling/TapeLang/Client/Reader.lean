import TapeLang.Client.Transport

/-!
How the client's end reads. A connection gives out chunks of any size; the reader keeps what it has of
a line in a buffer, takes every complete line out of it, and puts the messages into a mailbox. An empty
chunk is the end of the connection, and so is a read that fails; the end is a mark in the mailbox.
Whoever takes the mark puts it back for the next one.
-/
namespace TapeLang.Client

open Debug (ServerMessage Session)
open Host (Line)

/-- The first line of a buffer and what comes after its line break. -/
def splitLine? : List UInt8 → Option (Line × List UInt8)
  | [] => none
  | byte :: rest =>
    if byte = 0xA then some ([], rest)
    else (splitLine? rest).map fun (line, rest) => (byte :: line, rest)

/-- A complete line and its line break are taken out of the buffer. -/
theorem eq_of_splitLine? {buffer line rest : List UInt8} (split : splitLine? buffer = some (line, rest)) :
    buffer = line ++ 0xA :: rest ∧ 0xA ∉ line := by
  induction buffer generalizing line with
  | nil => simp [splitLine?] at split
  | cons byte buffer ih =>
    unfold splitLine? at split
    by_cases newline : byte = 0xA
    · simp only [newline, ↓reduceIte, Option.some.injEq, Prod.mk.injEq] at split
      obtain ⟨rfl, rfl⟩ := split
      exact ⟨by rw [newline, List.nil_append], List.not_mem_nil⟩
    · simp only [newline, ↓reduceIte, Option.map_eq_some_iff, Prod.mk.injEq] at split
      obtain ⟨⟨line', rest'⟩, found, rfl, rfl⟩ := split
      obtain ⟨same, unbroken⟩ := ih found
      exact ⟨by rw [same, List.cons_append], by simp [Ne.symm newline, unbroken]⟩

/-- A buffer without a line break is kept as it is. -/
theorem splitLine?_eq_none {buffer : List UInt8} (none : splitLine? buffer = none) : 0xA ∉ buffer := by
  induction buffer with
  | nil => exact List.not_mem_nil
  | cons byte buffer ih =>
    unfold splitLine? at none
    by_cases newline : byte = 0xA
    · simp [newline] at none
    · simp only [newline, ↓reduceIte, Option.map_eq_none_iff] at none
      simp [Ne.symm newline, ih none]

structure Reader where
  /-- what has arrived since the last line break -/
  buffer : List UInt8 := []
  /-- the messages that nobody has taken yet; `none` marks the end of the connection -/
  mailbox : List (Option ServerMessage) := []
  reading : Reading := .active

namespace Reader

/-- Reads a line, which has lost its line break. What the buffer holds is lost when reading stops. -/
def readLine (r : Reader) (line : Line) : Reader :=
  if Session.isBlankLine line then r
  else
    match ServerMessage.decode line with
    | .ok message => { r with mailbox := r.mailbox ++ [some message] }
    | .error (.protocol _) => r
    | .error (.number _) => { r with buffer := [], reading := .stuck }

theorem length_buffer_readLine (r : Reader) (line : Line) :
    (r.readLine line).buffer.length ≤ r.buffer.length := by
  unfold readLine
  split
  · exact Nat.le_refl _
  · split <;> simp

/-- Reads every complete line in the buffer. -/
def drain (r : Reader) : Reader :=
  match _split : splitLine? r.buffer with
  | none => r
  | some (line, rest) => drain ({ r with buffer := rest }.readLine line)
termination_by r.buffer.length
decreasing_by
  have shorter := length_buffer_readLine { r with buffer := rest } line
  have whole := congrArg List.length (eq_of_splitLine? _split).1
  simp only [List.length_append, List.length_cons] at shorter whole
  omega

/-- The connection has ended. -/
def finish (r : Reader) : Reader :=
  if r.reading = .active then { r with mailbox := r.mailbox ++ [none], reading := .ended } else r

/-- A chunk arrives. -/
def receive (r : Reader) (chunk : List UInt8) : Reader :=
  if chunk = [] then r.finish
  else if r.reading = .active then { r with buffer := r.buffer ++ chunk }.drain
  else r

/-- Takes the next message, or the end of the connection, out of the mailbox; there is no answer yet
while the mailbox is empty. -/
def next (r : Reader) : Option (Option ServerMessage) × Reader :=
  match r.mailbox with
  | [] => (none, r)
  | some message :: rest => (some (some message), { r with mailbox := rest })
  | none :: rest => (some none, { r with mailbox := rest ++ [none] })

/-- What happens at the client's end. -/
inductive Event where
  | arrive (chunk : List UInt8)
  /-- the connection breaks -/
  | fail
  /-- somebody asks for the next message -/
  | take
deriving DecidableEq, Repr

/-- One event, with the answer that it brings. -/
def happen (r : Reader) : Event → Option (Option ServerMessage) × Reader
  | .arrive chunk => (none, r.receive chunk)
  | .fail => (none, r.finish)
  | .take => r.next

/-- Events one after the other, with all answers. -/
def run (r : Reader) : List Event → List (Option ServerMessage) × Reader
  | [] => ([], r)
  | event :: rest =>
    let (answer, r) := r.happen event
    let (answers, r) := r.run rest
    (answer.toList ++ answers, r)

end Reader
end TapeLang.Client

import TapeLang.Host.OsError

/-!
Streams that may break. A sink keeps what was written, one entry for each call, and a source gives
out its bytes or lines; either may have a budget of calls, after which every call fails and has no
effect.
-/
namespace TapeLang.Host

/-- Spends one call of a budget; no budget serves every call. -/
def spend : Option Nat → Option (Option Nat)
  | none => some none
  | some 0 => none
  | some (left + 1) => some (some left)

/-- What was written, one entry for each call, newest first. -/
structure Sink where
  chunks : List (List UInt8) := []
  /-- the number of calls that are still served -/
  budget : Option Nat := none
deriving DecidableEq, Repr

namespace Sink

/-- Writes bytes in one call. -/
def write (s : Sink) (bytes : List UInt8) : Except OsError Sink :=
  match spend s.budget with
  | some budget => .ok { chunks := bytes :: s.chunks, budget }
  | none => .error .inputOutput

/-- The number of calls that were served. -/
def calls (s : Sink) : Nat := s.chunks.length

/-- All bytes written. -/
def bytes (s : Sink) : List UInt8 := s.chunks.reverse.flatten

theorem bytes_write {s t : Sink} {bytes : List UInt8} (done : s.write bytes = .ok t) :
    t.bytes = s.bytes ++ bytes := by
  unfold write at done
  split at done
  · obtain rfl := Except.ok.inj done
    simp [Sink.bytes]
  · simp at done

end Sink

/-- Bytes to be read one at a time. -/
structure Source where
  pending : List UInt8 := []
  /-- the number of calls that were served -/
  calls : Nat := 0
  budget : Option Nat := none
deriving DecidableEq, Repr

namespace Source

/-- The next byte, or nothing at the end. -/
def read (s : Source) : Except OsError (Option UInt8 × Source) :=
  match spend s.budget with
  | some budget =>
    .ok (s.pending.head?, { pending := s.pending.tail, calls := s.calls + 1, budget })
  | none => .error .inputOutput

end Source

/-- A line with the line break that ends it, if one does. -/
abbrev Line := List UInt8

/-- Splits bytes after each line break. -/
def linesFrom (begun : List UInt8) : List UInt8 → List Line
  | [] => if begun.isEmpty then [] else [begun.reverse]
  | byte :: rest =>
    if byte = 0xA then (byte :: begun).reverse :: linesFrom [] rest
    else linesFrom (byte :: begun) rest

/-- The lines of a byte sequence, each with its line break. -/
def lines (bytes : List UInt8) : List Line := linesFrom [] bytes

/-- Lines to be read one at a time. More lines may still arrive until the source is complete. -/
structure LineSource where
  pending : List Line := []
  complete : Bool := true
  budget : Option Nat := none
deriving DecidableEq, Repr

/-- What a call for a line gives. -/
inductive LineRead where
  | line (line : Line)
  | finished
  | waiting
  | failed (error : OsError)
deriving DecidableEq, Repr

namespace LineSource

/-- The complete source of the lines of a byte sequence. -/
def ofBytes (bytes : List UInt8) (budget : Option Nat) : LineSource :=
  { pending := lines bytes, budget }

/-- The next line. Waiting for one costs nothing. -/
def read (s : LineSource) : LineRead × LineSource :=
  match spend s.budget with
  | none => (.failed .inputOutput, s)
  | some budget =>
    match s.pending with
    | line :: rest => (.line line, { s with pending := rest, budget })
    | [] => if s.complete then (.finished, { s with budget }) else (.waiting, s)

/-- Adds a line that arrived. -/
def arrive (s : LineSource) (line : Line) : LineSource := { s with pending := s.pending ++ [line] }

/-- No more lines will arrive. -/
def finish (s : LineSource) : LineSource := { s with complete := true }

end LineSource
end TapeLang.Host

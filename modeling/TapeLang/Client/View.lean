import TapeLang.Debug.Message
import TapeLang.Json.Printer

/-!
How a paused program is shown: a line that says what comes next and where, and below it the cells
around the cursor, with the cell under the cursor in brackets. The window is as wide as asked for where
the cells suffice, stays inside the cells that the program told of, and has the cursor about its middle
where it can.
-/
namespace TapeLang.Client

open Debug (Snapshot)

/-- A text at the end of a field. -/
def flushRight (width : Nat) (t : Text) : Text := List.replicate (width - t.length) 0x20 ++ t

/-- A cell of the window, in brackets if the cursor is on it. -/
def cellText (cursor : Int) (value : Int) (index : Nat) : Text :=
  let digits := flushRight 3 (Json.writeInt value)
  if (index : Int) = cursor then [0x5B] ++ digits ++ [0x5D] else [0x20] ++ digits ++ [0x20]

/-- The width of the window that commands show. -/
def standardWidth : Int := 16

/-- The number of the first cell in a window of some width, for a cursor and the number of cells. -/
def windowStart (cursor : Int) (length : Nat) (width : Int) : Int :=
  max 0 (min (cursor - width / 2) (length - width))

/-- The number of cells in the window. -/
def windowLength (cursor : Int) (length : Nat) (width : Int) : Nat :=
  let start := windowStart cursor length width
  (min (start + width) length - start).toNat

end TapeLang.Client

namespace TapeLang.Debug.Snapshot

open Client (flushRight cellText windowStart windowLength)

/-- What is said of a paused program: the kind of the statement that comes next and its place, the
cursor, and the value under it. What the program did not tell is null. -/
def summary (s : Snapshot) : List (String × Json) :=
  [("statement", (s.statement.get? (.ofString "type")).getD .null),
    ("line", (s.position.get? (.ofString "line")).getD .null),
    ("column", (s.position.get? (.ofString "column")).getD .null),
    ("cursor", .int s.cursor),
    ("value", (s.current?.map Json.int).getD .null)]

/-- A part of what is said of a paused program, as it reads in a sentence. -/
def said (s : Snapshot) (name : String) : Text := ((s.summary.lookup name).getD .null).plain

/-- The line above the window. -/
def headline (s : Snapshot) : Text :=
  .ofString "paused at " ++ s.said "statement" ++ .ofString " (" ++ s.said "line" ++ .ofString ":" ++
    s.said "column" ++ .ofString ")  cursor=" ++ s.said "cursor" ++ .ofString " value=" ++ s.said "value"

/-- The cells of the window. -/
def windowCells (s : Snapshot) (width : Int) : List Text :=
  let start := (windowStart s.cursor s.tape.length width).toNat
  let values := (s.tape.drop start).take (windowLength s.cursor s.tape.length width)
  (values.zipIdx start).map fun (value, index) => cellText s.cursor value index

/-- The window: the number of its first cell, and its cells. -/
def windowLine (s : Snapshot) (width : Int) : Text :=
  .ofString "  " ++ flushRight 5 (Json.writeInt (windowStart s.cursor s.tape.length width)) ++
    .ofString ": " ++ (s.windowCells width).flatten

/-- How a paused program is shown. -/
def render (s : Snapshot) (width : Int) : Text :=
  if s.tape.isEmpty then s.headline else s.headline ++ [0xA] ++ s.windowLine width

end TapeLang.Debug.Snapshot

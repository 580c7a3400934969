/-!
Tapes. A tape is a row of byte cells with a cursor. Moves that would leave the tape are refused and
change nothing; cell arithmetic wraps around. A tape without cells can be made: its cursor is on no
cell, so whoever reads or changes the current cell first asks whether there is one. On every other
tape the operations keep the cursor on a cell.
-/
namespace TapeLang

structure Tape where
  cells : Array UInt8
  cursor : Nat
deriving DecidableEq, Repr

namespace Tape

/-- Why a cell cannot be reached. -/
inductive Fault where
  /-- the tape has no cell under the cursor -/
  | noCell
  | outside (cell : Int) (size : Nat)
  | negativeSize
deriving DecidableEq, Repr

def Fault.message : Fault → String
  | .noCell => "bytearray index out of range"
  | .outside cell size => s!"cell {cell} outside tape of {size} cells"
  | .negativeSize => "negative count"

/-- The number of cells of a program's tape. -/
def standardSize : Nat := 30000

/-- The number of cells at the front of the tape that a snapshot shows. -/
def windowSize : Nat := 100

/-- A tape of zeros. -/
def blank (size : Nat) : Tape := ⟨Array.replicate size 0, 0⟩

/-- A tape of zeros whose size may have been given as a negative number. -/
def make (size : Int) : Except Fault Tape :=
  if size < 0 then .error .negativeSize else .ok (blank size.toNat)

/-- The number of cells. -/
def size (t : Tape) : Nat := t.cells.size

/-- The byte that an integer stands for: its residue modulo 256. -/
def byte (value : Int) : UInt8 := UInt8.ofNat (value % 256).toNat

/-- The cell under the cursor. -/
def current? (t : Tape) : Option UInt8 := t.cells[t.cursor]?

/-- The value under the cursor, zero where there is no cell. -/
def current (t : Tape) : UInt8 := t.cells.getD t.cursor 0

/-- Whether the cursor is on a cell. -/
def hasCell (t : Tape) : Bool := t.cursor < t.cells.size

/-- Replaces the cell under the cursor, if there is one. -/
def write (t : Tape) (value : UInt8) : Tape :=
  { t with cells := t.cells.setIfInBounds t.cursor value }

/-- Changes the cell under the cursor, if there is one. -/
def modify (t : Tape) (f : UInt8 → UInt8) : Tape := { t with cells := t.cells.modify t.cursor f }

def increment (t : Tape) : Tape := t.modify (· + 1)

def decrement (t : Tape) : Tape := t.modify (· - 1)

/-- The tape with the cursor one cell to the right, whether or not there is one. -/
def right (t : Tape) : Tape := { t with cursor := t.cursor + 1 }

/-- The tape with the cursor one cell to the left. -/
def left (t : Tape) : Tape := { t with cursor := t.cursor - 1 }

/-- One cell to the right, unless the cursor is on the last one. -/
def moveRight? (t : Tape) : Option Tape :=
  if t.cursor + 1 < t.size then some t.right else none

/-- One cell to the left, unless the cursor is on the first one. -/
def moveLeft? (t : Tape) : Option Tape := if 0 < t.cursor then some t.left else none

/-- Sets every cell to zero. -/
def clear (t : Tape) : Tape := { t with cells := Array.replicate t.size 0 }

/-- The index of a cell that may have been given as any integer. -/
def index? (t : Tape) (cell : Int) : Option Nat :=
  if 0 ≤ cell ∧ cell < t.size then some cell.toNat else none

def inRange (t : Tape) (cell : Int) : Bool := (t.index? cell).isSome

/-- Moves the cursor to a cell. -/
def seek (t : Tape) (cell : Int) : Except Fault Tape :=
  match t.index? cell with
  | some index => .ok { t with cursor := index }
  | none => .error (.outside cell t.size)

/-- Replaces a cell by an integer's residue. -/
def store (t : Tape) (cell value : Int) : Except Fault Tape :=
  match t.index? cell with
  | some index => .ok { t with cells := t.cells.setIfInBounds index (byte value) }
  | none => .error (.outside cell t.size)

/-- The first cells; a negative count leaves out that many at the end. -/
def window (t : Tape) (count : Int) : List UInt8 :=
  (t.cells.extract 0 (if count < 0 then (t.size + count).toNat else count.toNat)).toList

/-- Runs of equal cells from an index on, zeros left out: start, value and length. -/
def runsFrom (start : Nat) : List UInt8 → List (Nat × UInt8 × Nat)
  | [] => []
  | value :: rest =>
    if value = 0 then runsFrom (start + 1) rest
    else
      match runsFrom (start + 1) rest with
      | (next, same, count) :: more =>
        if next = start + 1 ∧ same = value then (start, value, count + 1) :: more
        else (start, value, 1) :: (next, same, count) :: more
      | [] => [(start, value, 1)]

/-- The cells that are not zero, as runs of equal neighbours. -/
def runs (t : Tape) : List (Nat × UInt8 × Nat) := runsFrom 0 t.cells.toList

/-! ## Sizes and cursors -/

/-- The cursor is on a cell. -/
def InBounds (t : Tape) : Prop := t.cursor < t.size

@[simp] theorem size_blank (n : Nat) : (blank n).size = n := by simp [blank, size]

@[simp] theorem size_clear (t : Tape) : t.clear.size = t.size := by simp [clear, size]

@[simp] theorem size_write (t : Tape) (value : UInt8) : (t.write value).size = t.size := by
  simp [write, size]

@[simp] theorem size_modify (t : Tape) (f : UInt8 → UInt8) : (t.modify f).size = t.size := by
  simp [modify, size]

@[simp] theorem size_increment (t : Tape) : t.increment.size = t.size := size_modify t _

@[simp] theorem size_decrement (t : Tape) : t.decrement.size = t.size := size_modify t _

theorem hasCell_iff {t : Tape} : t.hasCell = true ↔ t.InBounds := by
  simp [hasCell, InBounds, size]

theorem size_moveRight? {t u : Tape} (done : t.moveRight? = some u) :
    u.size = t.size ∧ u.cursor = t.cursor + 1 ∧ u.InBounds := by
  unfold moveRight? at done
  split at done
  · obtain rfl := Option.some.inj done
    exact ⟨rfl, rfl, by assumption⟩
  · simp at done

theorem size_moveLeft? {t u : Tape} (done : t.moveLeft? = some u) :
    u.size = t.size ∧ u.cursor + 1 = t.cursor := by
  unfold moveLeft? at done
  split at done
  · obtain rfl := Option.some.inj done
    exact ⟨rfl, by simp only [left]; omega⟩
  · simp at done

theorem index?_eq_some_iff {t : Tape} {cell : Int} {index : Nat} :
    t.index? cell = some index ↔ cell = index ∧ index < t.size := by
  unfold index?
  split
  · rw [Option.some_inj]
    omega
  · simp only [reduceCtorEq, false_iff]
    omega

end Tape
end TapeLang

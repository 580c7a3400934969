import TapeLang.Client.View

/-!
The window around the cursor. Wherever the cursor is, the window lies inside the cells that there are and
has its full width if they suffice (`windowStart_bounds`, `windowLength_eq`). The window holds the cursor
whenever it is on a cell (`cursor_inside`), and then that cell is the one in brackets.
-/
namespace TapeLang.Client

/-- Whether a cell is in brackets. -/
def Bracketed (cell : Text) : Prop := cell.head? = some 0x5B ∧ cell.getLast? = some 0x5D

variable {cursor : Int} {length : Nat} {width : Int}

theorem windowStart_bounds (cursor : Int) (length : Nat) (width : Int) :
    0 ≤ windowStart cursor length width ∧
      windowStart cursor length width + min width length ≤ length := by
  unfold windowStart
  omega

theorem windowLength_eq (positive : 1 ≤ width) :
    windowLength cursor length width = min width.toNat length := by
  have bounds := windowStart_bounds cursor length width
  unfold windowLength
  dsimp only
  omega

/-- A cursor that is on a cell is inside the window. -/
theorem cursor_inside (positive : 1 ≤ width) (onCell : 0 ≤ cursor ∧ cursor < length) :
    windowStart cursor length width ≤ cursor ∧
      cursor < windowStart cursor length width + min width length := by
  unfold windowStart
  omega

theorem cellText_at (value : Int) {index : Nat} (here : (index : Int) = cursor) :
    cellText cursor value index = [0x5B] ++ flushRight 3 (Json.writeInt value) ++ [0x5D] := by
  simp [cellText, here]

/-- Only the cell under the cursor is in brackets. -/
theorem bracketed_cellText (value : Int) (index : Nat) :
    Bracketed (cellText cursor value index) ↔ (index : Int) = cursor := by
  by_cases here : (index : Int) = cursor
  · rw [cellText_at value here]
    exact ⟨fun _ => here, fun _ => ⟨rfl, List.getLast?_concat⟩⟩
  · simp [Bracketed, cellText, here]

end TapeLang.Client

namespace TapeLang.Debug.Snapshot

open Client

variable {s : Snapshot} {width : Int}

/-- Cells in the window, numbered from the first of them. -/
theorem getElem?_windowCells (k : Nat) (inside : k < windowLength s.cursor s.tape.length width) :
    let start := (windowStart s.cursor s.tape.length width).toNat
    (s.windowCells width)[k]? = (s.tape[start + k]?).map fun value => cellText s.cursor value (start + k) := by
  simp [windowCells, List.getElem?_map, List.getElem?_zipIdx, inside, Function.comp_def]

theorem length_windowCells (positive : 1 ≤ width) :
    (s.windowCells width).length = min width.toNat s.tape.length := by
  have bounds := windowStart_bounds s.cursor s.tape.length width
  simp only [windowCells, List.length_map, List.length_zipIdx, List.length_take, List.length_drop,
    windowLength_eq positive]
  omega

/-- What the window shows at a place: the cell of the tape with that number. -/
theorem shows_cell (positive : 1 ≤ width) {k : Nat} {cell : Text}
    (here : (s.windowCells width)[k]? = some cell) :
    let start := (windowStart s.cursor s.tape.length width).toNat
    ∃ value, s.tape[start + k]? = some value ∧ cell = cellText s.cursor value (start + k) := by
  have inside : k < windowLength s.cursor s.tape.length width := by
    have bound := (List.getElem?_eq_some_iff.mp here).1
    rw [length_windowCells positive] at bound
    rw [windowLength_eq positive]
    exact bound
  rw [getElem?_windowCells k inside] at here
  obtain ⟨value, found, rfl⟩ := Option.map_eq_some_iff.mp here
  exact ⟨value, found, rfl⟩

/-- What is left of a list without one place stands at another place. -/
theorem exists_elsewhere {cells : List Text} {k : Nat} {cell : Text}
    (member : cell ∈ cells.take k ++ cells.drop (k + 1)) : ∃ j, j ≠ k ∧ cells[j]? = some cell := by
  rcases List.mem_append.mp member with before | after
  · obtain ⟨j, found⟩ := List.mem_iff_getElem?.mp before
    have below := (List.getElem?_eq_some_iff.mp found).1
    rw [List.length_take] at below
    rw [List.getElem?_take_of_lt (by omega)] at found
    exact ⟨j, by omega, found⟩
  · obtain ⟨j, found⟩ := List.mem_iff_getElem?.mp after
    rw [List.getElem?_drop] at found
    exact ⟨_, by omega, found⟩

/-- Of a tape that has cells a window of any width shows as many as fit, one after the other and all of
them on the tape, after the number of the first. If the cursor is on a cell of the tape, then exactly that
cell is in brackets, with its value; if not, then none is. -/
theorem window_frames_cursor (s : Snapshot) (width : Int) (positive : 1 ≤ width)
    (nonempty : s.tape ≠ []) :
    ∃ (start : Nat) (cells : List Text),
      s.render width = s.headline ++ [0xA] ++ (.ofString "  " ++ flushRight 5 (Json.writeInt start) ++
        .ofString ": " ++ cells.flatten) ∧
      cells.length = min width.toNat s.tape.length ∧ start + cells.length ≤ s.tape.length ∧
      (∀ k cell, cells[k]? = some cell → ∃ value, s.tape[start + k]? = some value ∧
        cell = cellText s.cursor value (start + k)) ∧
      (0 ≤ s.cursor ∧ s.cursor < s.tape.length → ∃ before value after,
        cells = before ++ ([0x5B] ++ flushRight 3 (Json.writeInt value) ++ [0x5D]) :: after ∧
        ((start + before.length : Nat) : Int) = s.cursor ∧ s.current? = some value ∧
        ∀ other ∈ before ++ after, ¬ Bracketed other) ∧
      (¬ (0 ≤ s.cursor ∧ s.cursor < s.tape.length) → ∀ cell ∈ cells, ¬ Bracketed cell) := by
  have bounds := windowStart_bounds s.cursor s.tape.length width
  have length := length_windowCells (s := s) positive
  generalize first : (windowStart s.cursor s.tape.length width).toNat = start
  have shows : ∀ k cell, (s.windowCells width)[k]? = some cell → ∃ value,
      s.tape[start + k]? = some value ∧ cell = cellText s.cursor value (start + k) := by
    intro k cell here
    exact first ▸ shows_cell positive here
  refine ⟨start, s.windowCells width, ?_, length, by omega, shows, ?_, ?_⟩
  · have label : (start : Int) = windowStart s.cursor s.tape.length width := by omega
    simp only [render, List.isEmpty_iff, nonempty, ↓reduceIte, windowLine, label]
  · intro onCell
    have inside := cursor_inside positive onCell
    obtain ⟨k, place⟩ : ∃ k : Nat, ((start + k : Nat) : Int) = s.cursor :=
      ⟨(s.cursor - start).toNat, by omega⟩
    have bound : k < (s.windowCells width).length := by omega
    obtain ⟨value, found, same⟩ := shows k _ (List.getElem?_eq_getElem bound)
    refine ⟨(s.windowCells width).take k, value, (s.windowCells width).drop (k + 1), ?_, ?_, ?_, ?_⟩
    · rw [← cellText_at value place, ← same, List.getElem_cons_drop, List.take_append_drop]
    · rw [List.length_take_of_le (Nat.le_of_lt bound)]
      exact place
    · have number : s.cursor.toNat = start + k := by omega
      simp [current?, onCell.1, number, found]
    · intro other member
      -- another place of the window has another number
      obtain ⟨j, apart, here⟩ := exists_elsewhere member
      obtain ⟨value', -, rfl⟩ := shows j other here
      rw [bracketed_cellText]
      omega
  · intro offTape cell member
    obtain ⟨k, here⟩ := List.mem_iff_getElem?.mp member
    obtain ⟨value, found, rfl⟩ := shows k cell here
    have onTape := (List.getElem?_eq_some_iff.mp found).1
    rw [bracketed_cellText]
    omega

/-- A window of odd width at the right end of a tape, whose last cell but one is under the cursor. -/
theorem window_frames_cursor_at_end :
    let s : Snapshot := { statement := [], position := [], cursor := 5, tape := [1, 2, 3, 4, 5, 255, 7] }
    (1 : Int) ≤ 3 ∧ s.tape ≠ [] ∧ s.windowLine 3 = .ofString "      4:    5 [255]   7 " ∧
      ∃ (start : Nat) (cells before after : List Text) (value : Int),
        s.render 3 = s.headline ++ [0xA] ++ (.ofString "  " ++ flushRight 5 (Json.writeInt start) ++
          .ofString ": " ++ cells.flatten) ∧
        cells.length = 3 ∧
        cells = before ++ ([0x5B] ++ flushRight 3 (Json.writeInt value) ++ [0x5D]) :: after ∧
        s.current? = some value ∧ ∀ other ∈ before ++ after, ¬ Bracketed other := by
  intro s
  have positive : (1 : Int) ≤ 3 := by decide
  have nonempty : s.tape ≠ [] := by simp [s]
  obtain ⟨start, cells, shown, length, -, -, onCell, -⟩ := window_frames_cursor s 3 positive nonempty
  obtain ⟨before, value, after, split, -, current, others⟩ := onCell (by decide)
  exact ⟨positive, nonempty, by decide, start, cells, before, after, value, shown, length, split,
    current, others⟩

end TapeLang.Debug.Snapshot

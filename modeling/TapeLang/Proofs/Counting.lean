import Mathlib.Data.Nat.Count
import TapeLang.Proofs.Ending

/-!
Loops that count down. A row of increments, decrements and moves adds to each cell what its offset from
the cursor says (`Machine.row_inside`), unless one of its moves would leave the tape, where the run
fails (`Machine.row_outside`). If the row comes back to where it began and takes one from the cell
there, a loop over it executes it as often as that cell counts, and every other cell grows by so many
times what the row adds (`Machine.counting_loop_multiplies`).
-/
namespace TapeLang

open Source (Action Block Header Statement)

/-! ## Rows -/

namespace Source

/-- Increments, decrements and moves. -/
def Action.isPlain : Action → Bool
  | .increment | .decrement | .moveRight | .moveLeft => true
  | _ => false

/-- How far an action moves the cursor. -/
def Action.shift : Action → Int
  | .moveRight => 1
  | .moveLeft => -1
  | _ => 0

/-- What an action adds to the cell at an offset from the cursor. -/
def Action.added : Action → Int → UInt8
  | .increment, 0 => 1
  | .decrement, 0 => -1
  | _, _ => 0

/-- The failure of a move that would leave the tape. -/
def Action.leaving? : Action → Option Failure
  | .moveRight => some .overflow
  | .moveLeft => some .underflow
  | _ => Option.none

namespace Block

/-- Whether a block is a row of increments, decrements and moves. -/
def isPlain : Block → Bool
  | .nil => true
  | .act _ action next => action.isPlain && next.isPlain
  | .loop _ _ _ => false

/-- How far the first actions of a row move the cursor. -/
def travel : Block → Nat → Int
  | .act _ action next, count + 1 => action.shift + next.travel count
  | _, _ => 0

/-- What a row adds to the cell at an offset from where it begins. -/
def net : Block → Int → UInt8
  | .act _ action next, offset => action.added offset + next.net (offset - action.shift)
  | _, _ => 0

@[simp] theorem travel_zero (row : Block) : row.travel 0 = 0 := by cases row <;> rfl

/-- A row adds nothing where it does not come. -/
theorem net_eq_zero {row : Block} {offset : Int}
    (elsewhere : ∀ i ≤ row.length, row.travel i ≠ offset) : row.net offset = 0 := by
  induction row generalizing offset with
  | nil | loop => rfl
  | act head action next ih =>
    have here : offset ≠ 0 := fun zero => elsewhere 0 (Nat.zero_le _) (by simp [zero])
    have now : action.added offset = 0 := by
      unfold Action.added
      split <;> first | exact absurd rfl here | rfl
    have later : next.net (offset - action.shift) = 0 := by
      refine ih fun i inside same => elsewhere (i + 1) (Nat.succ_le_succ inside) ?_
      rw [travel, same]
      omega
    rw [net, now, later]
    rfl

end Block
end Source

/-! ## Tapes -/

namespace Tape

variable {t u v : Tape} {d e : Int} {f g : Int → UInt8}

/-- The value of a cell, zero where there is none. -/
def cell (t : Tape) (index : Nat) : UInt8 := t.cells.getD index 0

/-- The tape has a cell at a distance from the cursor. -/
def Spans (t : Tape) (distance : Int) : Prop :=
  0 ≤ t.cursor + distance ∧ t.cursor + distance < t.size

instance (t : Tape) (distance : Int) : Decidable (t.Spans distance) :=
  inferInstanceAs (Decidable (_ ∧ _))

/-- A tape after its cursor has moved and something was added to every cell, by its offset from where
the cursor was. -/
structure Changed (t u : Tape) (distance : Int) (added : Int → UInt8) : Prop where
  size : u.size = t.size
  cursor : (u.cursor : Int) = t.cursor + distance
  cell : ∀ index < t.size, u.cell index = t.cell index + added (index - t.cursor)

theorem spans_zero_iff : t.Spans 0 ↔ t.InBounds := by
  unfold Spans InBounds
  omega

theorem inBounds_of_spans {row : Block} (inside : ∀ i ≤ row.length, t.Spans (row.travel i)) :
    t.InBounds := by
  simpa [spans_zero_iff] using inside 0 (Nat.zero_le _)

theorem Changed.refl (t : Tape) : t.Changed t 0 fun _ => 0 :=
  ⟨rfl, by simp, fun _ _ => by simp⟩

theorem Changed.trans (first : t.Changed u d f) (second : u.Changed v e g) :
    t.Changed v (d + e) fun offset => f offset + g (offset - d) where
  size := second.size.trans first.size
  cursor := by rw [second.cursor, first.cursor, Int.add_assoc]
  cell index inside := by
    have offset : (index : Int) - u.cursor = index - t.cursor - d := by rw [first.cursor]; omega
    rw [second.cell index (first.size ▸ inside), first.cell index inside, offset, UInt8.add_assoc]

/-- The cells that a changed tape has are counted from where the cursor was. -/
theorem Changed.spans_iff (changed : t.Changed u d f) {distance : Int} :
    u.Spans distance ↔ t.Spans (d + distance) := by
  unfold Spans
  rw [changed.cursor, changed.size, Int.add_assoc]

theorem Changed.current (changed : t.Changed u 0 f) (inside : t.InBounds) :
    u.current = t.current + f 0 := by
  have same : u.cursor = t.cursor := by have := changed.cursor; omega
  calc u.current = u.cell t.cursor := by rw [← same]; rfl
    _ = t.cell t.cursor + f (t.cursor - t.cursor) := changed.cell t.cursor inside
    _ = t.current + f 0 := by rw [Int.sub_self]; rfl

theorem changed_modify (t : Tape) (h : UInt8 → UInt8) (byte : UInt8)
    (adds : ∀ value, h value = value + byte) (now : f 0 = byte)
    (elsewhere : ∀ offset, offset ≠ 0 → f offset = 0) : t.Changed (t.modify h) 0 f where
  size := size_modify t _
  cursor := by simp [modify]
  cell index within := by
    have cell : index < t.cells.size := within
    simp only [Tape.cell, modify, Array.getD_eq_getD_getElem?, Array.getElem?_modify]
    by_cases same : t.cursor = index
    · simp [same, cell, adds, now]
    · have apart : (index : Int) - t.cursor ≠ 0 := by omega
      simp [same, elsewhere _ apart]

end Tape

/-! ## Machines in a row -/

namespace Machine

variable {m : Machine} {head : Header} {action : Action} {next row : Block}

/-- A statement is looked at and then acts, if no client is attached. -/
theorem step_looked {s : Statement} (arriving : m.phase = .arriving) (alone : m.attached = false)
    (first : m.frame.rest.uncons? = some (s, next)) : m.step = { m with phase := .ready } := by
  simp only [step, arriving, first, look, alone, Bool.false_eq_true, ↓reduceIte]

/-- An action of a row is performed in the second step. -/
theorem plain_step (arriving : m.phase = .arriving) (alone : m.attached = false)
    (rest : m.frame.rest = .act head action next) (here : m.tape.InBounds) :
    m.step = { m with phase := .ready } ∧
      m.step.step = { m with phase := .ready }.perform head action next := by
  have cell : m.tape.hasCell = true := Tape.hasCell_iff.mpr here
  have ready := step_looked arriving alone (congrArg Block.uncons? rest)
  refine ⟨ready, ?_⟩
  rw [ready]
  simp [step, act, rest, cell]

/-- An action of a row that stays on the tape adds what it adds, and the machine goes on. -/
theorem plain_inside (m : Machine) (head : Header) (next : Block) (plain : action.isPlain = true)
    (there : m.tape.Spans action.shift) :
    ∃ u, m.tape.Changed u action.shift action.added ∧
      m.perform head action next = { m with tape := u }.advance next := by
  unfold Tape.Spans at there
  cases action with
  | increment =>
    exact ⟨m.tape.increment, Tape.changed_modify m.tape _ 1 (fun _ => rfl) rfl
      (fun offset apart => by simp [Action.added, apart]), rfl⟩
  | decrement =>
    exact ⟨m.tape.decrement, Tape.changed_modify m.tape _ (-1) (fun _ => UInt8.sub_eq_add_neg _ _) rfl
      (fun offset apart => by simp [Action.added, apart]), rfl⟩
  | moveRight =>
    have room : m.tape.cursor + 1 < m.tape.size := by simp only [Action.shift] at there; omega
    refine ⟨m.tape.right, ⟨rfl, by simp [Tape.right, Action.shift], fun index _ => ?_⟩, ?_⟩
    · simp [Tape.cell, Tape.right, Action.added]
    · simp only [perform, if_pos room]
  | moveLeft =>
    have room : 0 < m.tape.cursor := by simp only [Action.shift] at there; omega
    refine ⟨m.tape.left, ⟨rfl, by simp only [Tape.left, Action.shift]; omega, fun index _ => ?_⟩, ?_⟩
    · simp [Tape.cell, Tape.left, Action.added]
    · simp only [perform, if_pos room]
  | _ => simp [Action.isPlain] at plain

/-- An action of a row that would leave the tape is a move, and fails. -/
theorem plain_outside (m : Machine) (head : Header) (next : Block) (plain : action.isPlain = true)
    (here : m.tape.InBounds) (beyond : ¬ m.tape.Spans action.shift) :
    ∃ failure, action.leaving? = some failure ∧
      m.perform head action next = m.halt (.failed failure head.position) := by
  unfold Tape.Spans at beyond
  unfold Tape.InBounds at here
  cases action with
  | increment | decrement => simp only [Action.shift] at beyond; omega
  | moveRight =>
    have full : ¬ m.tape.cursor + 1 < m.tape.size := by simp only [Action.shift] at beyond; omega
    exact ⟨.overflow, rfl, by simp only [perform, if_neg full, stop]⟩
  | moveLeft =>
    have full : ¬ 0 < m.tape.cursor := by simp only [Action.shift] at beyond; omega
    exact ⟨.underflow, rfl, by simp only [perform, if_neg full, stop]⟩
  | _ => simp [Action.isPlain] at plain

/-- A machine that is past the beginning of a block, or about to act. -/
def Begun (m : Machine) (index : Nat) : Prop := m.phase = .ready ∨ index < m.frame.index

/-- A machine that has acted on one statement has begun its block, and stays in it as long as it does
from the next statement on. -/
theorem begun_later {n : Machine} {steps : Nat} (ready : m.step = { m with phase := .ready })
    (two : step^[2] m = n) (index : n.frame.index = m.frame.index + 1)
    (begun : ∀ i, 0 < i → i ≤ steps → (step^[i] n).Begun n.frame.index) :
    ∀ i, 0 < i → i ≤ steps + 2 → (step^[i] m).Begun m.frame.index := by
  intro i positive within
  match i, positive with
  | 1, _ => exact .inl (congrArg Machine.phase ready)
  | 2, _ =>
    rw [two]
    exact .inr (by omega)
  | i + 3, _ =>
    have split : step^[i + 1 + 2] m = step^[i + 1] n := by rw [Function.iterate_add_apply, two]
    rw [split]
    rcases begun (i + 1) (Nat.succ_pos i) (by omega) with ready | past
    · exact .inl ready
    · exact .inr (by omega)

/-- A row that stays on the tape is gone through in two steps for each action, and adds what it adds. -/
theorem row_inside (arriving : m.phase = .arriving) (alone : m.attached = false)
    (rest : m.frame.rest = row) (plain : row.isPlain = true)
    (inside : ∀ i ≤ row.length, m.tape.Spans (row.travel i)) :
    ∃ u, m.tape.Changed u (row.travel row.length) row.net ∧
      step^[2 * row.length] m =
        { m with frame := ⟨m.frame.block, m.frame.index + row.length, .nil⟩, tape := u } ∧
      ∀ i, 0 < i → i ≤ 2 * row.length → (step^[i] m).Begun m.frame.index := by
  induction row generalizing m with
  | nil =>
    have stays : (⟨m.frame.block, m.frame.index, .nil⟩ : Frame) = m.frame := by rw [← rest]
    refine ⟨m.tape, .refl m.tape, congrArg (fun frame => { m with frame }) stays.symm,
      fun i positive none => ?_⟩
    exact absurd none (Nat.not_le.mpr positive)
  | loop => simp [Block.isPlain] at plain
  | act head action next ih =>
    obtain ⟨now, later⟩ := Bool.and_eq_true_iff.mp plain
    have here := Tape.inBounds_of_spans inside
    have there : m.tape.Spans action.shift := by
      simpa [Block.travel] using inside 1 (by simp [Block.length])
    obtain ⟨ready, acts⟩ := plain_step arriving alone rest here
    obtain ⟨t, changed, gone⟩ := plain_inside { m with phase := .ready } head next now there
    obtain ⟨u, rest_changed, reached, begun⟩ :=
      ih (m := { m with tape := t }.advance next) rfl alone rfl later
        fun i within => changed.spans_iff.mpr (inside (i + 1) (Nat.succ_le_succ within))
    have two : step^[2] m = { m with tape := t }.advance next := acts.trans gone
    refine ⟨u, changed.trans rest_changed, ?_, begun_later ready two rfl begun⟩
    have count : m.frame.index + 1 + next.length = m.frame.index + (next.length + 1) := by omega
    rw [Block.length, Nat.mul_succ, Function.iterate_add_apply, two, reached]
    simp only [advance, Frame.past, arriving, count]

/-- A row with a move that would leave the tape is gone through up to the first such move, which
fails. -/
theorem row_outside (arriving : m.phase = .arriving) (alone : m.attached = false)
    (rest : m.frame.rest = row) (plain : row.isPlain = true) (here : m.tape.InBounds)
    (outside : ∃ i ≤ row.length, ¬ m.tape.Spans (row.travel i)) :
    ∃ i head action failure, row.statements[i]? = some (.act head action) ∧
      action.leaving? = some failure ∧ (∀ j ≤ i, m.tape.Spans (row.travel j)) ∧
      ¬ m.tape.Spans (row.travel (i + 1)) ∧
      (step^[2 * i + 2] m).outcome? = some (.failed failure head.position) ∧
      ∀ k, 0 < k → k ≤ 2 * i + 1 → (step^[k] m).Begun m.frame.index := by
  have origin : m.tape.Spans 0 := Tape.spans_zero_iff.mpr here
  induction row generalizing m with
  | nil =>
    obtain ⟨i, -, beyond⟩ := outside
    exact absurd origin beyond
  | loop => simp [Block.isPlain] at plain
  | act head action next ih =>
    obtain ⟨now, later⟩ := Bool.and_eq_true_iff.mp plain
    obtain ⟨ready, acts⟩ := plain_step arriving alone rest here
    by_cases there : m.tape.Spans action.shift
    · obtain ⟨t, changed, gone⟩ := plain_inside { m with phase := .ready } head next now there
      have two : step^[2] m = { m with tape := t }.advance next := acts.trans gone
      have moved : t.Spans 0 := changed.spans_iff.mpr (by simpa using there)
      have beyond : ∃ i ≤ next.length, ¬ t.Spans (next.travel i) := by
        obtain ⟨i, within, beyond⟩ := outside
        cases i with
        | zero => exact absurd (by simpa using origin) beyond
        | succ i =>
          exact ⟨i, Nat.le_of_succ_le_succ within, fun spans => beyond (changed.spans_iff.mp spans)⟩
      obtain ⟨i, head', action', failure, found, leaves, before, after, failed, begun⟩ :=
        ih (m := { m with tape := t }.advance next) rfl alone rfl later (Tape.spans_zero_iff.mp moved)
          beyond moved
      refine ⟨i + 1, head', action', failure, found, leaves, fun j within => ?_,
        fun spans => after (changed.spans_iff.mpr spans), ?_, begun_later ready two rfl begun⟩
      · cases j with
        | zero => simpa using origin
        | succ j => exact changed.spans_iff.mp (before j (Nat.le_of_succ_le_succ within))
      · rwa [Nat.mul_succ, Function.iterate_add_apply, two]
    · obtain ⟨failure, leaves, failed⟩ :=
        plain_outside { m with phase := .ready } head next now here there
      refine ⟨0, head, action, failure, rfl, leaves, fun j within => ?_, ?_, ?_,
        fun k positive within => ?_⟩
      · obtain rfl := Nat.le_zero.mp within
        simpa using origin
      · simpa [Block.travel] using there
      · exact congrArg outcome? (acts.trans failed)
      · obtain rfl : k = 1 := by omega
        exact .inl (congrArg Machine.phase ready)

/-! ## Loops over a row -/

/-- A machine that begins to execute a block inside certain frames. -/
def AtTop (m : Machine) (body : Block) (outer : List Frame) : Prop :=
  m.phase = .arriving ∧ m.frame = .enter body ∧ m.outer = outer

instance (m : Machine) (body : Block) (outer : List Frame) : Decidable (m.AtTop body outer) :=
  inferInstanceAs (Decidable (_ ∧ _ ∧ _))

/-- How often a block is begun inside certain frames within so many steps. -/
def executions (m : Machine) (body : Block) (outer : List Frame) (steps : Nat) : Nat :=
  Nat.count (fun i => (step^[i] m).AtTop body outer) steps

variable {body : Block} {outer : List Frame} {parent : Frame}

theorem Begun.not_atTop {index : Nat} (begun : m.Begun index) : ¬ m.AtTop body outer := by
  rintro ⟨arriving, frame, -⟩
  rcases begun with ready | past
  · simp [ready] at arriving
  · simp [frame, Frame.enter] at past

/-- An execution is begun once. -/
theorem executions_of_begun {index steps : Nat} (top : m.AtTop body outer)
    (begun : ∀ i, 0 < i → i ≤ steps → (step^[i] m).Begun index) :
    m.executions body outer (steps + 1) = 1 := by
  have none : Nat.count (fun i => (step^[i + 1] m).AtTop body outer) steps = 0 :=
    Nat.count_of_forall_not fun i within => (begun (i + 1) (Nat.succ_pos i) within).not_atTop
  rw [executions, Nat.count_succ', none]
  exact (Nat.zero_add _).trans (if_pos top)

theorem executions_add (m : Machine) (body : Block) (outer : List Frame) (a b : Nat) :
    m.executions body outer (a + b) =
      m.executions body outer a + (step^[a] m).executions body outer b := by
  unfold executions
  rw [Nat.count_add]
  simp only [← Function.iterate_add_apply, Nat.add_comm]

/-- An execution of a body that stays on the tape and comes back to where it began: the loop around goes
on with another one, or is over. -/
theorem execution_inside (top : m.AtTop body (parent :: outer)) (alone : m.attached = false)
    (rest : parent.rest = .loop head body next) (plain : body.isPlain = true)
    (inside : ∀ i ≤ body.length, m.tape.Spans (body.travel i))
    (returns : body.travel body.length = 0) :
    ∃ u steering, m.tape.Changed u 0 body.net ∧
      m.executions body (parent :: outer) (2 * body.length + 1) = 1 ∧
      step^[2 * body.length + 1] m =
        if u.current = 0 then { m with frame := parent.past next, outer, tape := u, steering }
        else { m with tape := u, steering } := by
  obtain ⟨arriving, frame, around⟩ := top
  obtain ⟨u, changed, reached, begun⟩ :=
    row_inside arriving alone (by rw [frame]; rfl) plain inside
  rw [returns] at changed
  have cell : u.hasCell = true := by
    rw [Tape.hasCell_iff, ← Tape.spans_zero_iff, changed.spans_iff, Int.add_zero, Tape.spans_zero_iff]
    exact Tape.inBounds_of_spans inside
  refine ⟨u, m.steering.blockEnded m.depth, changed,
    executions_of_begun ⟨arriving, frame, around⟩ begun, ?_⟩
  rw [Function.iterate_succ_apply', reached]
  simp only [step, arriving, Block.uncons?, endBlock, around, cell, rest, frame, Frame.enter, advance,
    depth, Bool.not_true, Bool.false_eq_true, ↓reduceIte]

/-- A loop over such a body that takes one from the cell it begins at executes it as often as that cell
counts. -/
theorem loop_inside {count : Nat} (top : m.AtTop body (parent :: outer)) (alone : m.attached = false)
    (rest : parent.rest = .loop head body next) (plain : body.isPlain = true)
    (inside : ∀ i ≤ body.length, m.tape.Spans (body.travel i))
    (returns : body.travel body.length = 0) (takes : body.net 0 = -1)
    (counts : m.tape.current.toNat = count + 1) :
    ∃ u steering, m.tape.Changed u 0 (fun offset => m.tape.current * body.net offset) ∧
      m.executions body (parent :: outer) ((count + 1) * (2 * body.length + 1)) = count + 1 ∧
      step^[(count + 1) * (2 * body.length + 1)] m =
        { m with frame := parent.past next, outer, tape := u, steering } := by
  induction count generalizing m with
  | zero =>
    obtain ⟨u, steering, changed, once, after⟩ :=
      execution_inside top alone rest plain inside returns
    have one : m.tape.current = 1 := UInt8.toNat_inj.mp counts
    have last : u.current = 0 := by
      rw [changed.current (Tape.inBounds_of_spans inside), one, takes]
      rfl
    refine ⟨u, steering, ?_, by simpa using once, ?_⟩
    · simpa only [one, UInt8.one_mul] using changed
    · rw [Nat.zero_add, Nat.one_mul, after, if_pos last]
  | succ count ih =>
    obtain ⟨t, steering, changed, once, after⟩ :=
      execution_inside top alone rest plain inside returns
    have sum : m.tape.current = 1 + t.current := by
      rw [changed.current (Tape.inBounds_of_spans inside), takes, UInt8.add_comm, UInt8.add_assoc]
      exact (UInt8.add_zero _).symm
    have left : t.current.toNat = count + 1 := by
      rw [sum, UInt8.toNat_add] at counts
      have bound := t.current.toNat_lt
      have one : (1 : UInt8).toNat = 1 := rfl
      omega
    have more : t.current ≠ 0 := fun zero => by simp [zero] at left
    rw [if_neg more] at after
    obtain ⟨u, steering', changed', often, done⟩ := ih (m := { m with tape := t, steering })
      top alone (fun i within => changed.spans_iff.mpr (by simpa using inside i within)) left
    refine ⟨u, steering', ?_, ?_, ?_⟩
    · have product := changed.trans changed'
      simpa only [sum, UInt8.add_mul, UInt8.one_mul, Int.add_zero, Int.sub_zero] using product
    · rw [Nat.succ_mul, Nat.add_comm, executions_add, once, after, often, Nat.add_comm]
    · rw [Nat.succ_mul, Function.iterate_add_apply, after, done]

/-- A loop is looked at, and then goes on to what follows or begins its body. -/
theorem loop_entered (arriving : m.phase = .arriving) (alone : m.attached = false)
    (rest : m.frame.rest = .loop head body next) (here : m.tape.InBounds) :
    m.executions body (m.frame :: m.outer) 2 = 0 ∧
      step^[2] m = if m.tape.current = 0 then m.advance next
        else { m with frame := .enter body, outer := m.frame :: m.outer } := by
  have cell : m.tape.hasCell = true := Tape.hasCell_iff.mpr here
  have ready := step_looked arriving alone (congrArg Block.uncons? rest)
  have first : ¬ m.AtTop body (m.frame :: m.outer) := fun top => by simpa using top.2.2
  have second : ¬ m.step.AtTop body (m.frame :: m.outer) := fun top => by
    simpa [ready] using top.1
  constructor
  · refine Nat.count_of_forall_not fun i within => ?_
    match i, within with
    | 0, _ => exact first
    | 1, _ => exact second
  · change m.step.step = _
    rw [ready]
    simp only [step, act, rest, cell, Bool.not_true, Bool.false_eq_true, ↓reduceIte, advance, arriving]

/-- A loop that counts down the cell that it begins at multiplies, where no client is attached. Its body
is a row of increments, decrements and moves that comes back to where it began and takes one from the
cell there. If the body stays on the tape, the loop executes it as often as that cell counts: the cell
is zero then, every other cell has grown by so many times what the body adds there, and those that the
body does not come to are as they were. If the body would leave the tape and the cell is not zero, the
run fails in the first execution, at the first move that would leave the tape. -/
theorem counting_loop_multiplies (arriving : m.phase = .arriving) (alone : m.attached = false)
    (rest : m.frame.rest = .loop head body next) (here : m.tape.InBounds)
    (plain : body.isPlain = true) (returns : body.travel body.length = 0)
    (takes : body.net 0 = -1) :
    let count := m.tape.current.toNat
    ((∀ i ≤ body.length, m.tape.Spans (body.travel i)) →
      ∃ tape steering steps,
        step^[steps] m = { m with frame := m.frame.past next, tape, steering } ∧
        m.executions body (m.frame :: m.outer) steps = count ∧
        tape.cursor = m.tape.cursor ∧ tape.size = m.tape.size ∧ tape.current = 0 ∧
        (∀ index < m.tape.size, index ≠ m.tape.cursor → tape.cell index =
          m.tape.cell index + m.tape.current * body.net (index - m.tape.cursor)) ∧
        ∀ index < m.tape.size, (∀ i ≤ body.length, m.tape.cursor + body.travel i ≠ index) →
          tape.cell index = m.tape.cell index) ∧
      (0 < count → (∃ i ≤ body.length, ¬ m.tape.Spans (body.travel i)) →
        ∃ i head action failure steps, body.statements[i]? = some (.act head action) ∧
          action.leaving? = some failure ∧ (∀ j ≤ i, m.tape.Spans (body.travel j)) ∧
          ¬ m.tape.Spans (body.travel (i + 1)) ∧
          (step^[steps] m).outcome? = some (.failed failure head.position) ∧
          m.executions body (m.frame :: m.outer) steps = 1) := by
  intro count
  obtain ⟨none, entered⟩ := loop_entered arriving alone rest here
  refine ⟨fun inside => ?_, fun positive outside => ?_⟩
  · obtain ⟨tape, steering, steps, changed, often, done⟩ : ∃ tape steering steps,
        m.tape.Changed tape 0 (fun offset => m.tape.current * body.net offset) ∧
        m.executions body (m.frame :: m.outer) steps = count ∧
        step^[steps] m = { m with frame := m.frame.past next, tape, steering } := by
      cases counts : count with
      | zero =>
        have zero : m.tape.current = 0 := UInt8.toNat_inj.mp counts
        refine ⟨m.tape, m.steering, 2, ?_, none, ?_⟩
        · simpa only [zero, UInt8.zero_mul] using Tape.Changed.refl m.tape
        · rw [entered, if_pos zero, advance, ← arriving]
      | succ k =>
        have more : m.tape.current ≠ 0 := fun zero => by simp [count, zero] at counts
        rw [if_neg more] at entered
        obtain ⟨u, steering, changed, often, done⟩ := loop_inside
          (m := { m with frame := .enter body, outer := m.frame :: m.outer })
          ⟨arriving, rfl, rfl⟩ alone rest plain inside returns takes counts
        refine ⟨u, steering, (k + 1) * (2 * body.length + 1) + 2, changed, ?_, ?_⟩
        · rw [Nat.add_comm, executions_add, none, entered, often, Nat.zero_add]
        · rw [Function.iterate_add_apply, entered, done]
    have cursor : tape.cursor = m.tape.cursor := by have := changed.cursor; omega
    refine ⟨tape, steering, steps, done, often, cursor, changed.size, ?_,
      fun index within _ => changed.cell index within, fun index within elsewhere => ?_⟩
    · rw [changed.current here, takes, UInt8.mul_neg, UInt8.mul_one]
      exact UInt8.add_right_neg _
    · have nothing : body.net (index - m.tape.cursor) = 0 :=
        Block.net_eq_zero fun i within same => elsewhere i within (by omega)
      rw [changed.cell index within, nothing, UInt8.mul_zero, UInt8.add_zero]
  · have more : m.tape.current ≠ 0 := fun zero => by simp [count, zero] at positive
    rw [if_neg more] at entered
    obtain ⟨i, head', action, failure, found, leaves, before, after, failed, begun⟩ := row_outside
      (m := { m with frame := .enter body, outer := m.frame :: m.outer })
      arriving alone rfl plain here outside
    refine ⟨i, head', action, failure, 2 * i + 2 + 2, found, leaves, before, after, ?_, ?_⟩
    · rwa [Function.iterate_add_apply, entered]
    · rw [Nat.add_comm, executions_add, none, entered, Nat.zero_add]
      exact executions_of_begun ⟨arriving, rfl, rfl⟩ begun

/-- A loop that adds a cell to the one on its right, where there is one and where there is none. -/
theorem counting_loop_multiplies_transfer :
    let body : Block := .act ⟨⟨1, 2⟩, false⟩ .decrement (.act ⟨⟨1, 3⟩, false⟩ .moveRight
      (.act ⟨⟨1, 4⟩, false⟩ .increment (.act ⟨⟨1, 5⟩, false⟩ .moveLeft .nil)))
    let m (tape : Tape) := start (.loop ⟨⟨1, 1⟩, false⟩ body .nil) tape {}
    (∃ steps, (m ⟨#[3, 10], 0⟩).executions body [(m ⟨#[3, 10], 0⟩).frame] steps = 3 ∧
      (step^[steps] (m ⟨#[3, 10], 0⟩)).tape.cell 0 = 0 ∧
      (step^[steps] (m ⟨#[3, 10], 0⟩)).tape.cell 1 = 13) ∧
    ∃ steps, (m ⟨#[3], 0⟩).executions body [(m ⟨#[3], 0⟩).frame] steps = 1 ∧
      (step^[steps] (m ⟨#[3], 0⟩)).outcome? = some (.failed .overflow ⟨1, 3⟩) := by
  intro body m
  constructor
  · obtain ⟨tape, steering, steps, done, often, cursor, -, zero, grown, -⟩ :=
      (counting_loop_multiplies (m := m ⟨#[3, 10], 0⟩) rfl rfl rfl (Nat.zero_lt_succ 1)
        rfl rfl rfl).1 (by decide)
    refine ⟨steps, often, ?_, ?_⟩
    · rw [done, ← zero, Tape.current, cursor]
      rfl
    · rw [done]
      exact (grown 1 (by decide) (by decide)).trans (by decide)
  · obtain ⟨i, head, action, failure, steps, found, leaves, before, after, failed, once⟩ :=
      (counting_loop_multiplies (m := m ⟨#[3], 0⟩) rfl rfl rfl (Nat.zero_lt_succ 0)
        rfl rfl rfl).2 (by decide) ⟨2, by decide, by decide⟩
    refine ⟨steps, once, ?_⟩
    match i with
    | 0 => exact absurd (by decide) after
    | 1 =>
      obtain ⟨rfl, rfl⟩ := Statement.act.inj (Option.some.inj found)
      obtain rfl := Option.some.inj leaves
      exact failed
    | i + 2 => exact absurd (before 2 (by omega)) (by decide)

end Machine
end TapeLang

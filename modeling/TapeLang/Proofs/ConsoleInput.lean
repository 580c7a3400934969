import TapeLang.Proofs.Wiring.Ending

/-!
What a run depends on of its console input: the bytes that it reads, where the end reads as zeros for
ever. Two inputs are read in lock step as long as they agree so (`Machine.Fed.withInput_step`), and a run
that finds the same bytes in both does the same with both (`input_read_as_stream`).
-/
namespace TapeLang

open Host (Source)
open Source (Action Block Header)

/-! ## Inputs -/

/-- A stream of bytes after so many calls, which never breaks. -/
def Host.Source.after (bytes : List UInt8) (calls : Nat) : Source :=
  { pending := bytes.drop calls, calls }

theorem Host.Source.read_after (bytes : List UInt8) (calls : Nat) :
    (Source.after bytes calls).read = .ok (bytes[calls]?, .after bytes (calls + 1)) := by
  simp [Source.after, Source.read, Host.spend]

/-- The byte at an index of an input that goes on with zeros. -/
def byteAt (input : List UInt8) (index : Nat) : UInt8 := input[index]?.getD 0

/-- The console with another input, of which as much was read. -/
def Console.withInput (c : Console) (bytes : List UInt8) : Console :=
  { c with input := .after bytes c.input.calls }

/-- Where the next bytes are the same, a call is answered the same. -/
theorem Console.answer_withInput {c : Console} {a b : List UInt8} {call : Call} (value : UInt8)
    (input : c.input = .after a c.input.calls)
    (agree : call = .read → byteAt a c.input.calls = byteAt b c.input.calls) :
    (c.withInput b).answer value call =
      (c.answer value call).map fun (d, byte) => (d.withInput b, byte) := by
  cases call with
  | write =>
    simp only [answer, withInput]
    cases c.out.write [value] <;> rfl
  | read =>
    have found : c.input.read = .ok (a[c.input.calls]?, .after a (c.input.calls + 1)) :=
      (congrArg Source.read input).trans (Source.read_after a c.input.calls)
    have same : a[c.input.calls]?.getD 0 = b[c.input.calls]?.getD 0 := agree rfl
    simp only [answer, withInput, found, Source.read_after, Except.map, same]
    rfl

/-- An answer reads the input or leaves it. -/
theorem Console.input_answer {c d : Console} {input : List UInt8} {value byte : UInt8} {call : Call}
    (fed : c.input = .after input c.input.calls) (answered : c.answer value call = .ok (d, byte)) :
    d.input = .after input d.input.calls ∧
      d.input.calls = c.input.calls + if call = .read then 1 else 0 := by
  cases call with
  | write =>
    obtain ⟨out, -, same⟩ := ok_of_map_ok answered
    obtain ⟨rfl, -⟩ := Prod.mk.inj same
    exact ⟨fed, rfl⟩
  | read =>
    obtain ⟨⟨found, after⟩, read, same⟩ := ok_of_map_ok answered
    obtain ⟨rfl, -⟩ := Prod.mk.inj same
    rw [fed, Source.read_after] at read
    obtain ⟨-, rfl⟩ := Prod.mk.inj (Except.ok.inj read)
    exact ⟨rfl, rfl⟩

namespace Machine

variable {m : Machine} {a b : List UInt8} {path : String}

/-- The machine with another input, of which it has read as much. -/
def withInput (m : Machine) (bytes : List UInt8) : Machine :=
  m.withConsole (m.world.console.withInput bytes)

/-- The run reads the byte at an index of its input, or beyond its end. -/
def Consumes (m : Machine) (index : Nat) : Prop := ∃ k, index < (step^[k] m).world.console.input.calls

/-- A run at a console with an input that never breaks. -/
structure Fed (m : Machine) (input : List UInt8) : Prop extends m.AtConsole where
  input : m.world.console.input = .after input m.world.console.input.calls

theorem fed_runOn {program : Block} (offline : program.isOffline = true) (files : Host.Files)
    (config : Config) (session : Option Debug.Session) (input : List UInt8) :
    (runOn program files config session input).Fed input :=
  ⟨atConsole_runOn offline files config session input, rfl⟩

/-! ## One step -/

theorem Fed.step (fed : m.Fed a) : m.step.Fed a := by
  refine ⟨fed.toAtConsole.step, ?_⟩
  rcases fed.console_step with same | ⟨call, head, byte, -, answered⟩
  · rw [same]
    exact fed.input
  · exact (Console.input_answer fed.input answered).1

/-- A step that reads has the next byte. -/
theorem Fed.consumes (fed : m.Fed a) {head : Header} (calls : m.call? = some (.read, head)) :
    m.Consumes m.world.console.input.calls := by
  obtain ⟨next, steps⟩ := fed.step_call calls
  have stepped : m.step = _ := steps m.world.console fed.own
  have found : m.world.console.input.read = .ok (a[m.world.console.input.calls]?,
      .after a (m.world.console.input.calls + 1)) :=
    (congrArg Source.read fed.input).trans (Source.read_after a _)
  refine ⟨1, ?_⟩
  rw [Function.iterate_one, stepped, Console.answer, found]
  exact Nat.lt_succ_self _

theorem Fed.withInput (fed : m.Fed a) (b : List UInt8) : (m.withInput b).Fed b :=
  ⟨fed.toAtConsole.withConsole fed.own, rfl⟩

/-- With another input a step does the same, if it does not read or finds the same byte. -/
theorem Fed.withInput_step (fed : m.Fed a)
    (agree : ∀ index, m.Consumes index → byteAt a index = byteAt b index) :
    (m.withInput b).step = m.step.withInput b := by
  cases calls : m.call? with
  | none =>
    have same := fed.withConsole_step calls
    have kept : m.step.world.console = m.world.console := congrArg (·.world.console) (same _)
    rw [Machine.withInput, Machine.withInput, same, kept]
  | some found =>
    obtain ⟨call, head⟩ := found
    have asked : call = .read → byteAt a m.world.console.input.calls =
        byteAt b m.world.console.input.calls := by
      rintro rfl
      exact agree _ (fed.consumes calls)
    have answer := Console.answer_withInput m.tape.current fed.input asked
    obtain ⟨next, steps⟩ := fed.step_call calls
    have stepped : m.step = _ := steps m.world.console fed.own
    rw [Machine.withInput, steps (m.world.console.withInput b) fed.own, answer, stepped]
    match m.world.console.answer m.tape.current call with
    | .ok (after, byte) => rfl
    | .error error => rfl

/-! ## Whole runs -/

theorem Consumes.of_step {index : Nat} (reads : m.step.Consumes index) : m.Consumes index := by
  obtain ⟨k, read⟩ := reads
  exact ⟨k + 1, read⟩

/-- Whether a machine has ended or waits does not depend on its input. -/
theorem Fed.isDone_withInput (fed : m.Fed a) (b : List UInt8) :
    (m.withInput b).isDone = m.isDone := by
  have connected := (fed.withInput b).offline.connected
  rw [isDone, isDone, waits, waits, connected, fed.offline.connected]
  rfl

/-- With another input a run does the same, if it finds the same bytes. -/
theorem Fed.withInput_run (fed : m.Fed a)
    (agree : ∀ index, m.Consumes index → byteAt a index = byteAt b index) (bound : Nat) :
    (m.withInput b).run bound = (m.run bound).withInput b := by
  induction bound generalizing m with
  | zero => rfl
  | succ bound ih =>
    unfold run
    rw [fed.isDone_withInput]
    split
    · rfl
    · rw [fed.withInput_step agree]
      exact ih fed.step fun index reads => agree index reads.of_step

theorem Fed.run (fed : m.Fed a) (bound : Nat) : (m.run bound).Fed a := by
  induction bound generalizing m with
  | zero => exact fed
  | succ bound ih =>
    unfold Machine.run
    split
    · exact fed
    · exact ih fed.step

/-- A run leaves the same with two inputs that hold the same bytes for it. -/
theorem Fed.endsWith_withInput (fed : m.Fed a)
    (agree : ∀ index, m.Consumes index → byteAt a index = byteAt b index) (path : String) (e : Ending) :
    (m.withInput b).EndsWith path e ↔ m.EndsWith path e := by
  unfold EndsWith
  refine exists_congr fun bound => ?_
  have later := fed.run bound
  have own : ((m.run bound).world.console.withInput b).forwarded = false := later.own
  have same := later.ending_withConsole own rfl rfl path
  rw [fed.withInput_run agree, Machine.withInput, same]

/-- Console input matters as a stream that goes on with zeros. A program that has no `io http` leaves the
same with two inputs, or halts with neither, if the inputs agree on the bytes that one of the two runs
reads: so with zeros appended, and with bytes changed that are not read. -/
theorem input_read_as_stream {program : Block} (offline : program.isOffline = true)
    (files : Host.Files) (config : Config) (session : Option Debug.Session) (path : String)
    (a : List UInt8) :
    let run := runOn program files config session
    (∀ b, ((∀ index, (run a).Consumes index → byteAt a index = byteAt b index) ∨
          (∀ index, (run b).Consumes index → byteAt a index = byteAt b index)) →
        ∀ e, (run a).EndsWith path e ↔ (run b).EndsWith path e) ∧
      (∀ count e, (run (a ++ List.replicate count 0)).EndsWith path e ↔ (run a).EndsWith path e) ∧
      ∀ index byte, ¬ (run a).Consumes index →
        ∀ e, (run (a.set index byte)).EndsWith path e ↔ (run a).EndsWith path e := by
  intro run
  have fed (input : List UInt8) : (run input).Fed input :=
    fed_runOn offline files config session input
  have alike (b c : List UInt8)
      (agree : ∀ index, (run b).Consumes index → byteAt b index = byteAt c index) (e : Ending) :
      (run c).EndsWith path e ↔ (run b).EndsWith path e := by
    have fresh : run c = (run b).withInput c := rfl
    rw [fresh]
    exact (fed b).endsWith_withInput agree path e
  refine ⟨fun b agree e => ?_, fun count e => alike a _ (fun index _ => ?_) e,
    fun index byte unread e => alike a _ (fun other reads => ?_) e⟩
  · rcases agree with agree | agree
    · exact (alike a b agree e).symm
    · exact alike b a (fun index reads => (agree index reads).symm) e
  · simp only [byteAt, List.getElem?_append, List.getElem?_replicate]
    split
    · rfl
    · rw [List.getElem?_eq_none (by omega)]
      split <;> rfl
  · have elsewhere : index ≠ other := by
      rintro rfl
      exact unread reads
    rw [byteAt, byteAt, List.getElem?_set_ne elsewhere]

/-- A program that reads once does not tell inputs apart by what comes after their first byte. -/
theorem input_read_as_stream_once :
    let program : Block := .act ⟨⟨1, 1⟩, false⟩ .input .nil
    let run := runOn program {} {} none
    program.isOffline = true ∧
      (∀ index, (run [65]).Consumes index → byteAt [65] index = byteAt [65, 66] index) ∧
      ∀ path e, (run [65]).EndsWith path e ↔ (run [65, 66]).EndsWith path e := by
  intro program run
  have once (index : Nat) (reads : (run [65]).Consumes index) : index = 0 := by
    obtain ⟨k, read⟩ := reads
    have cell : (Tape.blank Tape.standardSize).hasCell = true :=
      Tape.hasCell_iff.mpr (Tape.inBounds_blank (by decide))
    have ready : step^[1] (run [65]) = { run [65] with phase := .ready } := rfl
    have taken : step^[2] (run [65]) =
        { run [65] with
          frame := (run [65]).frame.past .nil
          tape := (Tape.blank Tape.standardSize).write 65
          world := (run [65]).world.withConsole { input := .after [65] 1 } } := by
      rw [Function.iterate_succ_apply', ready]
      simp [step, act, run, runOn, start, Frame.enter, cell, perform]
      rfl
    have ended : step^[3] (run [65]) = (step^[2] (run [65])).halt .completed := by
      rw [Function.iterate_succ_apply', taken]
      rfl
    have stays : (step^[3] (run [65])).step = step^[3] (run [65]) := by rw [ended]; rfl
    have calls : (step^[k] (run [65])).world.console.input.calls ≤ 1 := by
      rcases k with - | - | - | k
      · exact Nat.zero_le 1
      · rw [ready]
        exact Nat.zero_le 1
      · rw [taken]
        exact Nat.le_refl 1
      · have last : step^[k + 3] (run [65]) = step^[3] (run [65]) := by
          rw [Function.iterate_add_apply, Function.iterate_fixed stays]
        rw [last, ended, taken]
        exact Nat.le_refl 1
    omega
  have agree (index : Nat) (reads : (run [65]).Consumes index) :
      byteAt [65] index = byteAt [65, 66] index := by
    rw [once index reads]
    rfl
  exact ⟨rfl, agree, fun path =>
    (input_read_as_stream rfl {} {} none path [65]).1 [65, 66] (.inl agree)⟩

end Machine
end TapeLang

import TapeLang.Proofs.Wiring.Ending

/-!
A console that breaks after so many calls of a kind. As long as its calls are served a run does the same
as on a console that never breaks (`Machine.Unbroken.limited_iterate`), and the first call that is not
served ends it (`Machine.Unbroken.limited_out`). So such a fault cuts a run at one statement, and what
is left is what the run held before that statement, with one report (`Machine.console_fault_cuts_once`).
-/
namespace TapeLang

open Host (OsError)
open Source (Block Header)

/-! ## Consoles -/

namespace Console

variable {c d : Console} {call other : Call} {value byte : UInt8} {left : Nat}

/-- How many calls of a kind a console has served. -/
def served (c : Console) : Call → Nat
  | .write => c.out.calls
  | .read => c.input.calls

/-- The console on which calls of a kind fail after so many more of them. -/
def limited (c : Console) (left : Nat) : Call → Console
  | .write => { c with out := { c.out with budget := some left } }
  | .read => { c with input := { c.input with budget := some left } }

/-- A call that is served counts for its kind. -/
theorem served_answer (answered : c.answer value call = .ok (d, byte)) (other : Call) :
    d.served other = c.served other + if other = call then 1 else 0 := by
  cases call with
  | write =>
    obtain ⟨out, written, same⟩ := ok_of_map_ok answered
    obtain ⟨rfl, -⟩ := Prod.mk.inj same
    unfold Host.Sink.write at written
    split at written
    · obtain rfl := Except.ok.inj written
      cases other <;> rfl
    · simp at written
  | read =>
    obtain ⟨⟨found, input⟩, read, same⟩ := ok_of_map_ok answered
    obtain ⟨rfl, -⟩ := Prod.mk.inj same
    unfold Host.Source.read at read
    split at read
    · obtain ⟨-, rfl⟩ := Prod.mk.inj (Except.ok.inj read)
      cases other <;> rfl
    · simp at read

/-- One byte is written by a call to write, and none by another. -/
theorem bytes_answer (answered : c.answer value call = .ok (d, byte)) :
    d.out.bytes = c.out.bytes ++ if call = .write then [value] else [] := by
  cases call with
  | write =>
    obtain ⟨out, written, same⟩ := ok_of_map_ok answered
    obtain ⟨rfl, -⟩ := Prod.mk.inj same
    exact Host.Sink.bytes_write written
  | read =>
    obtain ⟨_, -, same⟩ := ok_of_map_ok answered
    obtain ⟨rfl, -⟩ := Prod.mk.inj same
    simp

/-- When the calls are used up the next one fails. -/
theorem answer_limited_zero (c : Console) (value : UInt8) (call : Call) :
    (c.limited 0 call).answer value call = .error .inputOutput := by
  cases call <;> rfl

/-- A call that is served uses up one of the calls that are left. -/
theorem Sound.answer_limited (sound : c.Sound) (left : Nat) (value : UInt8) (call : Call) :
    (c.limited (left + 1) call).answer value call =
      (c.answer value call).map fun (d, byte) => (d.limited left call, byte) := by
  cases call with
  | write =>
    simp only [Console.answer, limited, Host.Sink.write, sound.out, Host.spend]
    rfl
  | read =>
    simp only [Console.answer, limited, Host.Source.read, sound.input, Host.spend]
    rfl

/-- Calls of the other kind use up none. -/
theorem answer_limited_other (different : other ≠ call) (c : Console) (left : Nat) (value : UInt8) :
    (c.limited left call).answer value other =
      (c.answer value other).map fun (d, byte) => (d.limited left call, byte) := by
  cases call <;> cases other
  · exact absurd rfl different
  · simp only [Console.answer, limited]
    cases c.input.read <;> rfl
  · simp only [Console.answer, limited]
    cases c.out.write [value] <;> rfl
  · exact absurd rfl different

end Console

namespace Machine

variable {m : Machine} {call : Console.Call} {head : Header} {path : String}

/-- How many calls of a kind the console has served. -/
def served (m : Machine) (call : Console.Call) : Nat := m.world.console.served call

/-- The machine on a console whose calls of a kind fail after so many more of them. -/
def limited (m : Machine) (left : Nat) (call : Console.Call) : Machine :=
  m.withConsole (m.world.console.limited left call)

/-- A run with no client on a console that never breaks. -/
structure Unbroken (m : Machine) : Prop extends m.AtConsole where
  solo : m.world.session = none
  sound : m.world.console.Sound

theorem unbroken_runOn {program : Block} (offline : program.isOffline = true) (files : Host.Files)
    (config : Config) (input : List UInt8) : (runOn program files config none input).Unbroken :=
  ⟨atConsole_runOn offline files config none input, rfl, rfl, rfl, rfl⟩

/-! ## One step -/

theorem Unbroken.step (unbroken : m.Unbroken) : m.step.Unbroken :=
  ⟨unbroken.toAtConsole.step, unbroken.offline.solo_step unbroken.solo,
    unbroken.toAtConsole.sound_step unbroken.sound⟩

/-- What a step does to the console: nothing, or what a call does that it makes. -/
theorem Unbroken.console_step (unbroken : m.Unbroken) :
    m.call? = none ∧ m.step.world.console = m.world.console ∨
    ∃ call head byte, m.call? = some (call, head) ∧
      m.world.console.answer m.tape.current call = .ok (m.step.world.console, byte) := by
  cases calls : m.call? with
  | none =>
    exact .inl ⟨rfl, congrArg (·.world.console) (unbroken.withConsole_step calls m.world.console)⟩
  | some found =>
    obtain ⟨call, head⟩ := found
    obtain ⟨next, steps⟩ := unbroken.step_call calls
    obtain ⟨d, byte, answered, -⟩ := unbroken.sound.answer m.tape.current call
    have stepped : m.step = _ := steps m.world.console unbroken.own
    rw [stepped, answered]
    exact .inr ⟨call, head, byte, rfl, answered⟩

theorem Unbroken.served_step (unbroken : m.Unbroken) (call : Console.Call) :
    (∀ head, m.call? ≠ some (call, head)) ∧ m.step.served call = m.served call ∨
      ∃ head, m.call? = some (call, head) ∧ m.step.served call = m.served call + 1 := by
  rcases unbroken.console_step with ⟨quiet, same⟩ | ⟨made, head, byte, calls, answered⟩
  · exact .inl ⟨by simp [quiet], by rw [served, served, same]⟩
  · have counted : m.step.served call = m.served call + if call = made then 1 else 0 :=
      Console.served_answer answered call
    by_cases same : call = made
    · subst same
      exact .inr ⟨head, calls, by simpa using counted⟩
    · exact .inl ⟨by simp [calls, Ne.symm same], by simpa [same] using counted⟩

/-- A step writes no more than what a call to write does, and nothing to the error stream. -/
theorem Unbroken.written_step (unbroken : m.Unbroken) :
    m.world.console.out.bytes <+: m.step.world.console.out.bytes ∧
      m.step.world.console.out.bytes.length + m.served .write =
        m.world.console.out.bytes.length + m.step.served .write ∧
      m.step.world.console.err = m.world.console.err := by
  rcases unbroken.console_step with ⟨-, same⟩ | ⟨made, head, byte, -, answered⟩
  · simp [served, same]
  · have counted : m.step.served .write = m.served .write + if .write = made then 1 else 0 :=
      Console.served_answer answered .write
    rw [Console.bytes_answer answered, counted]
    refine ⟨List.prefix_append _ _, ?_, (Console.answer_keeps answered).1⟩
    cases made with
    | write => simp; omega
    | read => simp

/-- A step that makes no call of the kind leaves as many of them. -/
theorem Unbroken.limited_idle (unbroken : m.Unbroken) (idle : ∀ head, m.call? ≠ some (call, head))
    (left : Nat) : (m.limited left call).step = m.step.limited left call := by
  cases calls : m.call? with
  | none =>
    have same := unbroken.withConsole_step calls
    have kept : m.step.world.console = m.world.console := congrArg (·.world.console) (same _)
    rw [limited, limited, same, kept]
  | some found =>
    obtain ⟨other, head⟩ := found
    have different : other ≠ call := by
      rintro rfl
      exact idle head calls
    obtain ⟨next, steps⟩ := unbroken.step_call calls
    obtain ⟨d, byte, answered, -⟩ := unbroken.sound.answer m.tape.current other
    have stepped : m.step = _ := steps m.world.console unbroken.own
    rw [limited, steps _ (by cases call <;> exact unbroken.own),
      Console.answer_limited_other different, stepped, answered]
    rfl

/-- A step that makes a call of the kind uses it up. -/
theorem Unbroken.limited_served (unbroken : m.Unbroken) (calls : m.call? = some (call, head))
    (left : Nat) : (m.limited (left + 1) call).step = m.step.limited left call := by
  obtain ⟨next, steps⟩ := unbroken.step_call calls
  obtain ⟨d, byte, answered, -⟩ := unbroken.sound.answer m.tape.current call
  have stepped : m.step = _ := steps m.world.console unbroken.own
  rw [limited, steps _ (by cases call <;> exact unbroken.own), unbroken.sound.answer_limited, stepped,
    answered]
  rfl

/-- When none is left, a step that makes a call of the kind ends the run where it is. -/
theorem Unbroken.limited_out (unbroken : m.Unbroken) (calls : m.call? = some (call, head)) :
    (m.limited 0 call).step =
      (m.limited 0 call).halt (.failed (.os .inputOutput) head.position) := by
  obtain ⟨next, steps⟩ := unbroken.step_call calls
  rw [limited, steps _ (by cases call <;> exact unbroken.own), Console.answer_limited_zero]
  rfl

/-! ## Whole runs -/

theorem Unbroken.iterate (unbroken : m.Unbroken) (k : Nat) : (Machine.step^[k] m).Unbroken := by
  induction k generalizing m with
  | zero => exact unbroken
  | succ k ih => exact ih unbroken.step

/-- A run writes on, and nothing to the error stream. -/
theorem Unbroken.written_iterate (unbroken : m.Unbroken) (k : Nat) :
    m.world.console.out.bytes <+: (Machine.step^[k] m).world.console.out.bytes ∧
      (Machine.step^[k] m).world.console.out.bytes.length + m.served .write =
        m.world.console.out.bytes.length + (Machine.step^[k] m).served .write ∧
      (Machine.step^[k] m).world.console.err = m.world.console.err := by
  induction k with
  | zero => exact ⟨List.prefix_rfl, rfl, rfl⟩
  | succ k ih =>
    obtain ⟨before, count, err⟩ := ih
    obtain ⟨longer, counted, kept⟩ := (unbroken.iterate k).written_step
    rw [Function.iterate_succ_apply']
    exact ⟨before.trans longer, by omega, kept.trans err⟩

/-- As long as no more calls were made than are served, a run does the same as on a console that never
breaks. -/
theorem Unbroken.limited_iterate (unbroken : m.Unbroken) {n k : Nat}
    (enough : (Machine.step^[k] m).served call ≤ n) :
    Machine.step^[k] (m.limited (n - m.served call) call) =
      (Machine.step^[k] m).limited (n - (Machine.step^[k] m).served call) call := by
  induction k with
  | zero => rfl
  | succ k ih =>
    rw [Function.iterate_succ_apply'] at enough
    rw [Function.iterate_succ_apply', Function.iterate_succ_apply']
    have here := unbroken.iterate k
    rcases here.served_step call with ⟨idle, same⟩ | ⟨head, calls, more⟩
    · rw [ih (by omega), here.limited_idle idle, same]
    · have one : n - (Machine.step^[k] m).served call =
          n - (Machine.step^[k] m).step.served call + 1 := by omega
      rw [ih (by omega), one, here.limited_served calls]

/-- A run that makes more calls than a number makes the one after them at some statement. -/
theorem Unbroken.crosses (unbroken : m.Unbroken) {n k : Nat} (few : m.served call ≤ n)
    (many : n < (Machine.step^[k] m).served call) :
    ∃ j head, j < k ∧ (Machine.step^[j] m).call? = some (call, head) ∧
      (Machine.step^[j] m).served call = n := by
  induction k with
  | zero => exact absurd many (Nat.not_lt.mpr few)
  | succ k ih =>
    by_cases before : n < (Machine.step^[k] m).served call
    · obtain ⟨j, head, earlier, calls, count⟩ := ih before
      exact ⟨j, head, by omega, calls, count⟩
    · rw [Function.iterate_succ_apply'] at many
      rcases (unbroken.iterate k).served_step call with ⟨-, same⟩ | ⟨head, calls, more⟩
      · omega
      · exact ⟨k, head, Nat.lt_succ_self k, calls, by omega⟩

/-! ## Cuts -/

/-- What is left of a run that an operating system error has ended at a statement, where nothing was
reported before: all is as it was before the statement, and one report names its position. -/
structure CutBefore (m : Machine) (head : Header) (path : String) (e : Ending) : Prop where
  code : e.code = .ok 1
  output : e.output = m.world.console.out.bytes
  errors : e.errors = Text.Utf8.encodeString
    { kind := .uncaught, reason := OsError.inputOutput.message, position := head.position,
      path : ProgramError }.report
  tape : e.tape = m.tape
  target : e.target = m.world.target
  files : e.files.nodes = m.world.files.nodes

/-- A call that is not served cuts the run before its statement. -/
theorem Unbroken.cut (unbroken : m.Unbroken) (silent : m.world.console.err.bytes = [])
    (calls : m.call? = some (call, head)) (path : String) :
    ∃ e, (m.limited 0 call).step.ending? path = some e ∧ m.CutBefore head path e := by
  have seated : (m.limited 0 call).AtConsole :=
    unbroken.withConsole (by cases call <;> exact unbroken.own)
  have halted : ((m.limited 0 call).halt (.failed (.os .inputOutput) head.position)).AtConsole :=
    ⟨⟨seated.offline.away, seated.offline.program⟩, seated.wired, seated.own⟩
  rw [unbroken.limited_out calls]
  refine ⟨_, halted.ending_failed unbroken.solo ?_ rfl path, ?_⟩
  · cases call <;> exact unbroken.sound.err
  · have out : (m.world.console.limited 0 call).out.bytes = m.world.console.out.bytes := by
      cases call <;> rfl
    have err : (m.limited 0 call).world.console.err.bytes = [] := by cases call <;> exact silent
    refine ⟨rfl, out, ?_, rfl, rfl, Host.Files.nodes_foldl_close _ _⟩
    dsimp only [halt]
    rw [err, List.nil_append]
    rfl

/-- A console that breaks after so many calls of a kind cuts a run at one statement. If the run on a
console that never breaks makes more of them, the run ends at the statement of the call after them, and
leaves what was there before that statement, with one report. If it makes no more of them, the two runs
are the same. -/
theorem console_fault_cuts_once {program : Block} (offline : program.isOffline = true)
    (files : Host.Files) (config : Config) (input : List UInt8) (path : String)
    (call : Console.Call) (n : Nat) :
    let whole := runOn program files config none input
    let broken := whole.limited n call
    (∀ k, n < (step^[k] whole).served call → ∃ j head e,
      (step^[j] whole).call? = some (call, head) ∧ (step^[j] whole).served call = n ∧
        broken.EndsWith path e ∧ (step^[j] whole).CutBefore head path e ∧
        (call = .write → e.output = (step^[k] whole).world.console.out.bytes.take n)) ∧
      ((∀ k, (step^[k] whole).served call ≤ n) →
        (∀ k, step^[k] broken = (step^[k] whole).limited (n - (step^[k] whole).served call) call) ∧
          ∀ e, broken.EndsWith path e ↔ whole.EndsWith path e) := by
  intro whole broken
  have unbroken : whole.Unbroken := unbroken_runOn offline files config input
  have fresh : whole.served call = 0 := by cases call <;> rfl
  have seated : broken.AtConsole := unbroken.withConsole (by cases call <;> rfl)
  have awake (k : Nat) : (step^[k] whole).waits = false :=
    (unbroken.iterate k).offline.awake (unbroken.iterate k).solo
  have awake' (k : Nat) : (step^[k] broken).waits = false :=
    (seated.offline.iterate k).awake (seated.offline.solo_iterate rfl k)
  have alike {k : Nat} (enough : (step^[k] whole).served call ≤ n) :
      step^[k] broken = (step^[k] whole).limited (n - (step^[k] whole).served call) call := by
    have same := unbroken.limited_iterate enough
    rwa [fresh, Nat.sub_zero] at same
  refine ⟨fun k many => ?_, fun few => ⟨fun k => alike (few k), fun e => ?_⟩⟩
  · obtain ⟨j, head, earlier, calls, count⟩ := unbroken.crosses (by omega) many
    have here := unbroken.iterate j
    obtain ⟨before, length, err⟩ := unbroken.written_iterate j
    have silent : (step^[j] whole).world.console.err.bytes = [] := by rw [err]; rfl
    obtain ⟨e, ended, cut⟩ := here.cut silent calls path
    refine ⟨j, head, e, calls, count, ?_, cut, ?_⟩
    · refine (endsWith_iff_iterate awake').mpr ⟨j + 1, ?_⟩
      rw [Function.iterate_succ_apply', alike (Nat.le_of_eq count), count, Nat.sub_self]
      exact ended
    · rintro rfl
      obtain ⟨longer, -, -⟩ := here.written_iterate (k - j)
      rw [← Function.iterate_add_apply, Nat.sub_add_cancel (Nat.le_of_lt earlier)] at longer
      have n_bytes : (step^[j] whole).world.console.out.bytes.length = n := by
        have begun : whole.world.console.out.bytes.length = 0 := rfl
        omega
      rw [cut.output, List.prefix_iff_eq_take.mp longer, n_bytes]
  · rw [endsWith_iff_iterate awake, endsWith_iff_iterate awake']
    refine exists_congr fun k => ?_
    have here := unbroken.iterate k
    rw [alike (few k), limited, here.ending_withConsole (by cases call <;> exact here.own)
      (by cases call <;> rfl) (by cases call <;> rfl)]

/-- A program that writes twice, on a console that breaks after the first byte. -/
theorem console_fault_cuts_once_second_output :
    let program : Block := .act ⟨⟨1, 1⟩, false⟩ .output (.act ⟨⟨1, 2⟩, false⟩ .output .nil)
    program.isOffline = true ∧ ∀ path, ∃ e,
      ((runOn program {} {} none []).limited 1 .write).EndsWith path e ∧ e.code = .ok 1 ∧
        e.output = [0] := by
  intro program
  let run := runOn program {} {} none []
  have cell : (Tape.blank Tape.standardSize).hasCell = true :=
    Tape.hasCell_iff.mpr (Tape.inBounds_blank (by decide))
  have zero : (Tape.blank Tape.standardSize).current = 0 := by
    simp [Tape.current, Tape.blank, Tape.standardSize]
  have once : step^[2] run =
      { run with
        frame := run.frame.past (.act ⟨⟨1, 2⟩, false⟩ .output .nil)
        world := run.world.withConsole { out := { chunks := [[0]] } } } := by
    have ready : step^[1] run = { run with phase := .ready } := rfl
    rw [Function.iterate_succ_apply', ready]
    simp [step, act, run, runOn, start, Frame.enter, cell, perform, output, zero]
    rfl
  have twice : (step^[4] run).world.console.out.chunks = [[0], [0]] := by
    have ready : step^[3] run = { step^[2] run with phase := .ready } := by
      rw [Function.iterate_succ_apply', once]
      rfl
    rw [Function.iterate_succ_apply', ready, once]
    simp [step, act, run, runOn, start, Frame.enter, Frame.past, cell, perform, output, zero]
    rfl
  have offline : program.isOffline = true := rfl
  refine ⟨offline, fun path => ?_⟩
  obtain ⟨j, head, e, -, -, ended, cut, output⟩ :=
    (console_fault_cuts_once offline {} {} [] path .write 1).1 4 (by
      rw [served, Console.served, Host.Sink.calls, twice]
      decide)
  refine ⟨e, ended, cut.code, ?_⟩
  rw [output rfl, Host.Sink.bytes, twice]
  rfl

end Machine
end TapeLang

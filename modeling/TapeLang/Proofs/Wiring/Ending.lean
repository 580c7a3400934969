import TapeLang.Proofs.Ending
import TapeLang.Proofs.Reporting
import TapeLang.Proofs.Wiring

/-!
What a run at a console leaves. After it has halted only a report is written, to the error stream and to
a client, and the files are closed; so what was output, the tape, the target and the bytes of the files
are those of the machine (`Machine.AtConsole.ending`). Two such runs that differ in their consoles alone
leave the same if the consoles hold the same (`Machine.AtConsole.ending_withConsole`).
-/
namespace TapeLang

open Host (Files)

/-- The console after a text was written to its error stream, or could not be. -/
def Console.reported (c : Console) (text : String) : Console :=
  { c with err := (c.err.write (Text.Utf8.encodeString text)).toOption.getD c.err }

/-- The console after the report of an outcome, if it has one. -/
def Console.settled (c : Console) (path : String) : Outcome → Console
  | .failed failure position => c.reported (failure.located position path).report
  | _ => c

namespace World

variable {w : World}

theorem writeError_own (own : w.console.forwarded = false) (text : String) :
    (w.writeError text).toOption.getD w = w.withConsole (w.console.reported text) := by
  unfold writeError writeConsole Console.reported
  rw [if_neg (by simp [own])]
  cases w.console.err.write (Text.Utf8.encodeString text) <;> rfl

/-- A report goes to the error stream of the console, whatever else the console holds. -/
theorem reportError_withConsole {console : Console} (own : w.console.forwarded = false)
    (own' : console.forwarded = false) (text : String) :
    (w.withConsole console).reportError text =
      ((w.reportError text).1.withConsole (console.reported text), (w.reportError text).2) := by
  have client : ((w.withConsole console).withConsole (console.reported text)).session = w.session := rfl
  have client' : (w.withConsole (w.console.reported text)).session = w.session := rfl
  have written := writeError_own (w := w.withConsole console) own' text
  have held : (w.withConsole console).console = console := rfl
  simp only [reportError, writeError_own own, written, held, client, client']
  cases w.session with
  | none => rfl
  | some session =>
    dsimp only
    split
    · cases session.reportError text <;> rfl
    · rfl

theorem settleOutcome_withConsole {console : Console} (own : w.console.forwarded = false)
    (own' : console.forwarded = false) (path : String) (outcome : Outcome) :
    Machine.settleOutcome (w.withConsole console) path outcome =
      ((Machine.settleOutcome w path outcome).1.withConsole (console.settled path outcome),
        (Machine.settleOutcome w path outcome).2) := by
  cases outcome with
  | completed | steppedOut | broken => rfl
  | failed failure position =>
    simp only [Machine.settleOutcome, reportError_withConsole own own']
    generalize w.reportError (failure.located position path).report = reported
    obtain ⟨v, reported⟩ := reported
    cases reported <;> rfl

end World

theorem Host.Files.nodes_foldl_close (ids : List Nat) (f : Files) :
    (ids.foldl Files.close f).nodes = f.nodes := by
  induction ids generalizing f with
  | nil => rfl
  | cons id ids ih => exact ih (f.close id)

namespace Machine

variable {m : Machine} {outcome : Outcome} {path : String}

/-- What a run at a console leaves. -/
theorem AtConsole.ending (seated : m.AtConsole) (halted : m.outcome? = some outcome) (path : String) :
    m.ending? path = some
      { code := (settleOutcome m.world path outcome).2
        output := m.world.console.out.bytes
        errors := (m.world.console.settled path outcome).err.bytes
        tape := m.tape
        target := m.world.target
        files := m.world.opened.foldl Files.close m.world.files } := by
  have settled := World.settleOutcome_withConsole seated.own seated.own path outcome
  obtain ⟨console, session, same⟩ := settleOutcome_world m.world path outcome
  have held : m.world.withConsole m.world.console = m.world := rfl
  have left : (settleOutcome m.world path outcome).1 =
      { m.world with console := m.world.console.settled path outcome, session } := by
    rw [held] at settled
    rw [settled, same]
    rfl
  have unopened := seated.wired.unopened
  simp only [ending?, halted, Option.map_some, conclude, left, World.release, World.close,
    World.closeListener, unopened, Ending.of]
  cases outcome <;> rfl

/-- Runs that differ in their consoles alone leave the same, if the same was written to both. -/
theorem AtConsole.ending_withConsole (seated : m.AtConsole) {console : Console}
    (own : console.forwarded = false) (out : console.out.bytes = m.world.console.out.bytes)
    (err : console.err = m.world.console.err) (path : String) :
    (m.withConsole console).ending? path = m.ending? path := by
  cases halted : m.outcome? with
  | none => rw [ending_eq_none_iff.mpr halted, ending_eq_none_iff.mpr (by exact halted)]
  | some outcome =>
    have settled := World.settleOutcome_withConsole seated.own own path outcome
    have errors : (console.settled path outcome).err = (m.world.console.settled path outcome).err := by
      cases outcome <;> simp [Console.settled, Console.reported, err]
    rw [seated.ending halted, (seated.withConsole own).ending (by exact halted)]
    simp only [Machine.withConsole, settled]
    rw [← out, ← errors]
    rfl

/-- A failure of a run that no client is attached to is reported in one text, and the exit code is
one. -/
theorem AtConsole.ending_failed (seated : m.AtConsole) (solo : m.world.session = none)
    (sound : m.world.console.err.budget = none) {failure : Failure} {position : Source.Position}
    (halted : m.outcome? = some (.failed failure position)) (path : String) :
    m.ending? path = some
      { code := .ok 1
        output := m.world.console.out.bytes
        errors := m.world.console.err.bytes ++
          Text.Utf8.encodeString (failure.located position path).report
        tape := m.tape
        target := m.world.target
        files := m.world.opened.foldl Files.close m.world.files } := by
  have written (text : String) : (m.world.console.reported text).err.bytes =
      m.world.console.err.bytes ++ Text.Utf8.encodeString text := by
    simp [Console.reported, Host.Sink.write, sound, Host.spend, Except.toOption, Host.Sink.bytes]
  have code : (settleOutcome m.world path (.failed failure position)).2 = .ok 1 := by
    have told (text : String) : (m.world.reportError text).2 = .ok () := by
      unfold World.reportError
      rw [World.writeError_own seated.own]
      simp only [World.withConsole, solo]
    simp only [settleOutcome]
    generalize reported : m.world.reportError (failure.located position path).report = left
    obtain ⟨v, result⟩ := left
    obtain rfl : .ok () = result := (told _).symm.trans (congrArg Prod.snd reported)
    rfl
  rw [seated.ending halted, code, Console.settled, written]

end Machine
end TapeLang

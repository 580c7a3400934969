import TapeLang.Proofs.Continuing
import TapeLang.Proofs.Grammar
import TapeLang.Proofs.Handles
import TapeLang.Proofs.Routes

/-!
Programs read from a text, away from the network, under a client that sends nothing but commands. No
fault ends such a run and nothing keeps it waiting, whichever of its streams break and when
(`Machine.Sturdy.step`, `Machine.Sturdy.awake`).
-/
namespace TapeLang

open Host (Files)
open Source (Action Block Header Statement)

/-! ## Programs with a meaning -/

namespace Source

/-- Whether every action of a program has a meaning. -/
def Block.IsMeant : Block → Prop
  | .nil => True
  | .act _ action next => action ≠ .none ∧ next.IsMeant
  | .loop _ body next => body.IsMeant ∧ next.IsMeant

theorem hereditary_isMeant : Machine.Hereditary Block.IsMeant where
  act holds := holds.2
  loop holds := holds

theorem Says.isMeant (spoken : Says piece (.act head action)) : action ≠ .none := by
  cases spoken with
  | @simple _ token _ known =>
    rintro rfl
    cases kind : token.kind <;> simp [kind, TokenKind.action?] at known
  | push | switch => simp

/-- What is read from a text has a meaning. -/
theorem isMeant_of_parse (parsed : Block.parse source = .ok program) : program.IsMeant := by
  refine Spells.block_induction (motive := fun _ block => block.IsMeant) trivial ?_ ?_
    (spells_of_parse parsed)
  · intro _ _ _ _ _ _ _ spoken _ holds
    exact ⟨spoken.isMeant, holds⟩
  · intro _ _ _ _ _ _ _ _ _ _ _ inside _ _ holds
    exact ⟨inside, holds⟩

end Source

/-! ## Clients -/

namespace Debug.Session

variable {s t : Session}

/-- The client's stream is there to its end, and holds commands and blank lines. -/
structure Speaks (s : Session) : Prop where
  lines : ∀ line ∈ s.reader.pending,
    isBlankLine line = true ∨ ∃ command, Command.decode line = .ok command
  complete : s.reader.complete = true

theorem Speaks.becomes (speaks : s.Speaks) (becomes : s.Becomes t) : t.Speaks where
  lines line member := speaks.lines line (becomes.pending.subset member)
  complete := becomes.complete.trans speaks.complete

/-- What such a client sends is not refused. -/
theorem Speaks.readCommandFrom (speaks : s.Speaks) (bound : Nat) (fault : LineFault) :
    (s.readCommandFrom bound).1 ≠ .refused fault := by
  induction bound generalizing s with
  | zero => simp [Session.readCommandFrom]
  | succ bound ih =>
    obtain ⟨⟨pending, complete, budget⟩, writer, state, detached, mirrors, closable, closings⟩ := s
    obtain ⟨lines, rfl⟩ := speaks
    cases left : Host.spend budget with
    | none => simp [Session.readCommandFrom, Host.LineSource.read, left]
    | some budget' =>
      cases pending with
      | nil => simp [Session.readCommandFrom, Host.LineSource.read, left]
      | cons line rest =>
        simp only [Session.readCommandFrom, Host.LineSource.read, left]
        split
        · exact ih ⟨fun line member => lines line (List.mem_cons_of_mem _ member), rfl⟩
        next spoken =>
          rcases lines line List.mem_cons_self with blank | ⟨command, decoded⟩
          · exact absurd blank spoken
          · simp [decoded]

end Debug.Session

/-! ## The world -/

namespace Host.Files

theorem follow_unbroken {f : Files} {path : String} {start : Location} {names : List String} :
    f.follow path start names ≠ .error .inputOutput := by
  fun_induction follow f path start names <;> simp_all

/-- Opening a file never breaks as streams do. -/
theorem openShared_unbroken {f : Files} {path : String} :
    f.openShared path ≠ .error (.os .inputOutput) := by
  have located : f.locate path ≠ .error (.os .inputOutput) := by
    unfold locate
    split_ifs
    · simp
    · simp
    · simp
    · split
      · simp
      · split <;> simp
      · split
        · simp
        next error refused =>
          rintro same
          obtain rfl := OpenFault.os.inj (Except.error.inj same)
          exact follow_unbroken refused
  unfold openShared
  split
  next fault refused =>
    rintro same
    obtain rfl := Except.error.inj same
    exact located refused
  · simp
  · dsimp only
    split <;> simp

end Host.Files

namespace World

variable {w v u : World}

/-- The client, if there is one, sends commands, and is told of a failure in one way only: it sees the
console, or it is sent the report. -/
def Attended (w : World) : Prop :=
  ∀ session, w.session = some session →
    session.Speaks ∧ (session.mirrors = true ∨ w.console.forwarded = false)

theorem Attended.continues (attended : w.Attended) (continues : w.Continues v) : v.Attended := by
  intro t client
  obtain ⟨s, client, becomes⟩ := continues.session t client
  obtain ⟨speaks, told⟩ := attended s client
  exact ⟨speaks.becomes becomes, by rwa [becomes.mirrors, continues.forwarded]⟩

/-- A switch away from the network fails with the program's failure, if at all, and no stream breaks in
it. -/
theorem switch_stop (away : w.target ≠ .http) {name : String} (other : name ≠ Source.Target.http.name)
    {reason : Stop} (stopped : (w.switch name).2 = .error reason) :
    ∃ failure, reason = .failure failure ∧ failure ≠ .os .inputOutput := by
  simp only [switch, enter, away, ↓reduceIte] at stopped
  split at stopped
  · simp at stopped
  · unfold openFile at stopped
    split at stopped
    · simp at stopped
    next error refused =>
      refine ⟨_, (Except.error.inj stopped).symm, ?_⟩
      rintro same
      obtain rfl := Failure.os.inj same
      exact Files.openShared_unbroken refused
    · exact ⟨_, (Except.error.inj stopped).symm, by simp⟩
  next found => exact absurd (Source.Target.ofName?_eq_some_iff.mp found) other
  · simp at stopped
  · exact ⟨_, (Except.error.inj stopped).symm, by simp⟩

end World

/-! ## One step -/

namespace Machine

variable {m n : Machine}

/-- No fault has ended the run. -/
def Whole (m : Machine) : Prop := ∀ fault, m.phase ≠ .halted (.broken fault)

theorem whole_showState (paused : m.phase = .arriving ∨ m.phase = .paused) (s : Statement) :
    (m.showState s).Whole := by
  unfold showState withSession
  split
  next session client =>
    dsimp only
    split <;> simp [Whole, halt]
  next => rcases paused with phase | phase <;> simp [Whole, phase]

theorem whole_look (arriving : m.phase = .arriving) (s : Statement) : (m.look s).Whole := by
  unfold look
  split
  · dsimp only
    split
    · exact whole_showState (m := { m with
        steering := (m.steering.shouldPause m.site s.head.marked).2.entered m.site }) (.inl arriving) s
    · simp [Whole]
  · simp [Whole]

theorem whole_endBlock (cell : m.tape.hasCell = true) (arriving : m.phase = .arriving) :
    m.endBlock.Whole := by
  unfold endBlock
  dsimp only
  split
  · simp [Whole, halt]
  · simp only [cell, Bool.not_true, Bool.false_eq_true, ↓reduceIte]
    split
    · split <;> simp [Whole, advance, arriving]
    · simp [Whole, arriving]

theorem whole_stepOut (m : Machine) : m.stepOut.Whole := by
  unfold stepOut
  dsimp only
  split
  · simp [Whole, halt]
  · split <;> simp [Whole, advance]

theorem whole_answer (paused : m.phase = .paused) (s : Statement) (c : Debug.Command) :
    (m.answer s c).Whole := by
  have ignored : m.Whole := by simp [Whole, paused]
  have proceeds (n : Machine) : n.proceed.Whole := by simp [Whole, proceed]
  unfold answer
  split
  · exact ignored
  · exact proceeds (m.armAhead 1)
  · exact proceeds (m.armAhead 2)
  · split
    next tape _ => exact proceeds ({ m with tape }.armAhead 1)
    next => exact ignored
  · exact proceeds { m with steering := m.steering.resume }
  · exact whole_stepOut m
  · split
    · split
      next tape _ => exact whole_showState (m := { m with tape }) (.inr paused) s
      next => exact ignored
    · exact ignored

theorem whole_hear (paused : m.phase = .paused) (attended : m.world.Attended) (s : Statement) :
    (m.hear s).Whole := by
  cases client : m.world.session with
  | none =>
    simp only [hear, withSession, client]
    simp [Whole, paused]
  | some session =>
    have speaks := (attended session client).1
    have unrefused := speaks.readCommandFrom (session.reader.pending.length + 1)
    simp only [hear, withSession, client, Debug.Session.readCommand]
    generalize session.readCommandFrom _ = read at unrefused
    obtain ⟨heard, later⟩ := read
    cases heard with
    | waiting => simp [Whole, paused]
    | gone => simp [Whole]
    | failed error => simp [Whole, halt]
    | refused fault => exact absurd rfl (unrefused fault)
    | command command => exact whole_answer (by exact paused) s command

theorem whole_perform (offline : m.Offline) (meant : action ≠ .none)
    (rest : m.frame.rest = .act head action next) : (m.perform head action next).Whole := by
  have failed (n : Machine) (failure : Failure) : (n.stop head (.failure failure)).Whole := by
    simp [Whole, stop, halt]
  have advanced (n : Machine) : (n.advance next).Whole := by simp [Whole, advance]
  cases action with
  | increment | decrement | clear | push => exact advanced _
  | moveRight | moveLeft =>
    simp only [perform]
    split
    · exact advanced _
    · exact failed _ _
  | output =>
    simp only [perform, output_away offline.away, withWorld_eq]
    split
    · exact advanced _
    · exact failed _ _
  | input =>
    simp only [perform, input, withWorld_eq]
    split
    · exact advanced _
    · exact failed _ _
  | switch name =>
    have other := bne_iff_ne.mp (offline.allowed rest)
    simp only [perform, withWorld_eq]
    split
    · exact advanced _
    next reason stopped =>
      obtain ⟨failure, rfl, -⟩ := World.switch_stop offline.away other stopped
      exact failed _ _
  | none => exact absurd rfl meant

theorem whole_act (offline : m.Offline) (meant : m.frame.rest.IsMeant) (cell : m.tape.hasCell = true) :
    m.act.Whole := by
  unfold act
  simp only [cell, Bool.not_true, Bool.and_false, Bool.false_eq_true, ↓reduceIte]
  split
  · simp [Whole]
  next head action next rest =>
    rw [rest] at meant
    exact whole_perform offline meant.1 rest
  · split
    · simp [Whole, advance]
    · simp [Whole]

/-! ## Runs -/

/-- A machine that runs a program read from a text, away from the network, under a client that only
sends commands. -/
structure Sturdy (m : Machine) : Prop where
  offline : m.Offline
  meant : m.Within Block.IsMeant
  inside : m.tape.InBounds
  routes : m.world.Routes
  holds : m.world.Holds
  attended : m.world.Attended
  whole : m.Whole

theorem Sturdy.whole_step (sturdy : m.Sturdy) : m.step.Whole := by
  have cell : m.tape.hasCell = true := Tape.hasCell_iff.mpr sturdy.inside
  unfold Machine.step
  split
  · exact sturdy.whole
  next arriving =>
    split
    · exact whole_look arriving _
    · exact whole_endBlock cell arriving
  next paused =>
    split
    · exact whole_hear paused sturdy.attended _
    · simp [Whole]
  · exact whole_act sturdy.offline (sturdy.meant m.frame List.mem_cons_self).2 cell

theorem Sturdy.step (sturdy : m.Sturdy) : m.step.Sturdy where
  offline := sturdy.offline.step
  meant := sturdy.meant.step Source.hereditary_isMeant
  inside := step_tape.2 sturdy.inside
  routes := sturdy.offline.routes_step sturdy.routes
  holds := sturdy.offline.holds_step sturdy.holds
  attended := sturdy.attended.continues (continues_step m)
  whole := sturdy.whole_step

theorem Sturdy.iterate (sturdy : m.Sturdy) (n : Nat) : (Machine.step^[n] m).Sturdy := by
  induction n generalizing m with
  | zero => exact sturdy
  | succ n ih => exact ih sturdy.step

/-- Such a machine waits neither for its client nor for a connection. -/
theorem Sturdy.awake (sturdy : m.Sturdy) : m.waits = false := by
  have silent : m.awaitsCommand = false := by
    unfold awaitsCommand
    split
    next session _ client => simp [(sturdy.attended session client).1.complete]
    next => rfl
  simp only [waits, silent, sturdy.offline.connected, Bool.or_self]

end Machine
end TapeLang

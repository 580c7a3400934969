import Mathlib.Data.Nat.Count
import TapeLang.Proofs.Devices

/-!
Where the output of a run goes and where its input comes from. An action takes one turn of the device
that the world of the run is, and every other step leaves the device as it is (`Machine.Sharing.turn`),
so the laws of a whole run are those of its turns (`Machine.output_is_routed`).
-/
namespace TapeLang

open Host (Files Handle)
open Source (Action Block Header Target)

theorem Tape.current_write {t : Tape} (cell : t.hasCell = true) (value : UInt8) :
    (t.write value).current = value := by
  have inside : t.cursor < t.cells.size := by simpa [hasCell] using cell
  simp [current, write, Array.getD, inside]

namespace Machine

variable {m : Machine} {config : Config} {location : Host.Location} {head : Header} {action : Action}
  {next : Block}

/-- The action that the next step performs. -/
def doing? (m : Machine) : Option Action :=
  match m.phase, m.frame.rest with
  | .ready, .act _ action _ => if usesCell action && !m.tape.hasCell then none else some action
  | _, _ => none

/-- The next step performs an action while a target is active. -/
def Performs (m : Machine) (action : Action) (target : Target) : Prop :=
  m.doing? = some action ∧ m.world.target = target

instance (m : Machine) (action : Action) (target : Target) : Decidable (m.Performs action target) :=
  inferInstanceAs (Decidable (_ ∧ _))

/-- A step performs an action, or leaves the world alone, the session perhaps aside. -/
theorem step_doing (m : Machine) : m.doing? = none ∧ m.Spares m.step ∨
    ∃ head action next, m.doing? = some action ∧ m.frame.rest = .act head action next ∧
      (usesCell action = true → m.tape.hasCell = true) ∧ m.step = m.perform head action next := by
  cases doing : m.doing? with
  | some action =>
    right
    unfold doing? at doing
    split at doing
    next head action' next ready rest =>
      split at doing
      · simp at doing
      next able =>
        obtain rfl := Option.some.inj doing
        refine ⟨head, action', next, rfl, rest, fun uses => by simpa [uses] using able, ?_⟩
        simp only [step, ready, act, rest]
        exact if_neg able
    next => simp at doing
  | none =>
    refine .inl ⟨rfl, ?_⟩
    rcases step_world (m := m) with spares | ⟨head, action, next, ready, rest, -⟩
    · exact spares
    · -- the action needs a cell that is not there
      have unable : (usesCell action && !m.tape.hasCell) = true := by
        simpa [doing?, ready, rest] using doing
      have halted : m.step = m.halt (.broken (.tape .noCell)) := by
        simp only [step, ready, act, rest, unable, ↓reduceIte]
      rw [halted]
      exact .refl m

/-- A run at a console that never breaks, with the file at a place. -/
structure Sharing (m : Machine) (config : Config) (location : Host.Location) : Prop
    extends m.AtConsole where
  sound : m.world.console.Sound
  shares : m.world.Shares config location

theorem sharing_runOn {program : Block} (offline : program.isOffline = true) {files : Files}
    {config : Config} {opened : Files × Nat} (opens : files.openShared config.filePath = .ok opened)
    (session : Option Debug.Session) (input : List UInt8) :
    ∃ location, (runOn program files config session input).Sharing config location := by
  obtain ⟨location, place⟩ := Files.at_of_openShared opens
  exact ⟨location, atConsole_runOn offline files config session input, ⟨rfl, rfl, rfl⟩, rfl, place,
    fun id live => by simp [runOn, start, World.initial] at live⟩

/-! ### One step -/

/-- An action takes a turn of the device. -/
theorem Sharing.perform (sharing : m.Sharing config location)
    (rest : m.frame.rest = .act head action next) :
    (m.perform head action next).world.Shares config location ∧
      m.world.device.Turn m.tape.current action (m.perform head action next).world.device := by
  have quiet (n : Machine) (kept : n.world = m.world) (mute : action ≠ .output) (deaf : action ≠ .input)
      (stays : ∀ target : Target, action ≠ .switch target.name) :
      n.world.Shares config location ∧ m.world.device.Turn m.tape.current action n.world.device := by
    rw [kept]
    exact ⟨sharing.shares, .rest (fun same => absurd same mute) deaf stays⟩
  cases action with
  | increment | decrement | clear | push | none => exact quiet _ rfl (by simp) (by simp) (by simp)
  | moveRight | moveLeft =>
    refine quiet _ ?_ (by simp) (by simp) (by simp)
    simp only [Machine.perform]
    split <;> rfl
  | output =>
    rw [Machine.perform, output_world sharing.wired.away]
    exact sharing.shares.broadcast sharing.wired sharing.own sharing.sound m.tape.current
  | input =>
    obtain ⟨shares, turn, found⟩ := sharing.shares.read sharing.wired sharing.sound m.tape.current
    simp only [Machine.perform, input, withWorld_eq, found]
    exact ⟨shares, turn⟩
  | switch name =>
    have switched : (m.perform head (.switch name) next).world = (m.world.switch name).1 := by
      simp only [Machine.perform, withWorld_eq]
      split
      · rfl
      · exact stop_world _ _ _
    rw [switched]
    exact sharing.shares.switch sharing.wired.away (bne_iff_ne.mp (sharing.offline.allowed rest)) _

/-- A step takes the turn of the action that it performs, and leaves the device as it is if it performs
none. -/
theorem Sharing.turn (sharing : m.Sharing config location) : m.step.Sharing config location ∧
    (m.doing? = none ∧ m.step.world.device = m.world.device ∨
      ∃ action, m.doing? = some action ∧
        m.world.device.Turn m.tape.current action m.step.world.device) := by
  have seated := sharing.toAtConsole.step
  have sound := sharing.toAtConsole.sound_step sharing.sound
  rcases step_doing m with ⟨idle, session, same⟩ | ⟨head, action, next, doing, rest, -, performs⟩
  · have kept : m.step.world.Shares config location ∧ m.step.world.device = m.world.device := by
      rw [same]
      exact ⟨sharing.shares.of_same rfl rfl (.inl rfl), rfl⟩
    exact ⟨⟨seated, sound, kept.1⟩, .inl ⟨idle, kept.2⟩⟩
  · obtain ⟨shares, turn⟩ := sharing.perform rest
    rw [← performs] at shares turn
    exact ⟨⟨seated, sound, shares⟩, .inr ⟨action, doing, turn⟩⟩

/-- The turn of the action that a step performs. -/
theorem Sharing.turn_of_doing (sharing : m.Sharing config location) (doing : m.doing? = some action) :
    m.world.device.Turn m.tape.current action m.step.world.device := by
  rcases sharing.turn.2 with ⟨idle, -⟩ | ⟨other, doing', turn⟩
  · simp [idle] at doing
  · obtain rfl := Option.some.inj (doing'.symm.trans doing)
    exact turn

/-- An input puts the byte that is read next into the cell. -/
theorem Sharing.received (sharing : m.Sharing config location) (doing : m.doing? = some .input) :
    m.step.tape.current = m.world.device.next := by
  rcases step_doing m with ⟨idle, -⟩ | ⟨head, action, next, doing', -, able, performs⟩
  · simp [idle] at doing
  · obtain rfl := Option.some.inj (doing'.symm.trans doing)
    obtain ⟨-, -, found⟩ := sharing.shares.read sharing.wired sharing.sound 0
    rw [performs]
    simp only [Machine.perform, input, withWorld_eq, found]
    exact Tape.current_write (able rfl) _

/-- Output with nowhere to go changes nothing. -/
theorem Sharing.discards (sharing : m.Sharing config location) (performs : m.Performs .output .tcp) :
    m.step.world = m.world ∧ m.step.tape = m.tape := by
  obtain ⟨doing, target⟩ := performs
  rcases step_doing m with ⟨idle, -⟩ | ⟨head, action, next, doing', -, -, step⟩
  · simp [idle] at doing
  · obtain rfl := Option.some.inj (doing'.symm.trans doing)
    rcases sharing.wired with ⟨-, std, -⟩ | ⟨-, file, -⟩ | ⟨unopened, -, live⟩
    · simp [target] at std
    · simp [target] at file
    · rw [step]
      simp only [Machine.perform, output_away sharing.wired.away, withWorld_eq,
        World.broadcast_tcp unopened live]
      exact ⟨rfl, rfl⟩

/-- While the file is active it is live, with an offset that is not beyond its end. -/
theorem Sharing.live (sharing : m.Sharing config location) (target : m.world.target = .file) :
    ∃ bytes offset, m.world.content? = some bytes ∧ m.world.offset? = some offset ∧
      offset ≤ bytes.length := by
  rcases sharing.wired with ⟨-, std, -⟩ | ⟨-, -, live⟩ | ⟨-, tcp, -⟩
  · simp [target] at std
  · obtain ⟨handle, bytes, -, -, -, within, device⟩ := sharing.shares.of_file live
    exact ⟨bytes, handle.offset, congrArg Device.content device, congrArg Device.offset device, within⟩
  · simp [target] at tcp

/-- The next step reads from the console. -/
def ReadsConsole (m : Machine) : Prop := m.Performs .input .std ∨ m.Performs .input .tcp

instance (m : Machine) : Decidable m.ReadsConsole := inferInstanceAs (Decidable (_ ∨ _))

/-- An action is performed by a step of which it is the action. -/
theorem performs_iff (doing : m.doing? = some action) {other : Action} {target : Target} :
    m.Performs other target ↔ action = other ∧ m.world.target = target := by
  simp [Performs, doing]

/-- Away from the network input that does not come from the file comes from the console. -/
theorem Sharing.hears_iff (sharing : m.Sharing config location) :
    m.ReadsConsole ↔ m.doing? = some .input ∧ m.world.target ≠ .file := by
  have away := sharing.wired.away
  unfold ReadsConsole Performs
  cases kind : m.world.target with
  | http => exact absurd kind away
  | std | file | tcp => simp

theorem Sharing.printed_step (sharing : m.Sharing config location) : m.step.world.console.out.bytes =
    m.world.console.out.bytes ++ if m.Performs .output .std then [m.tape.current] else [] := by
  rcases sharing.turn.2 with ⟨idle, device⟩ | ⟨action, doing, turn⟩
  · have same : m.step.world.console.out.bytes = m.world.console.out.bytes :=
      congrArg Device.printed device
    simp [same, Performs, idle]
  · have printed := turn.printed
    simp only [performs_iff doing]
    exact printed

theorem Sharing.pending_step (sharing : m.Sharing config location) :
    m.step.world.console.input.pending =
      if m.ReadsConsole then m.world.console.input.pending.tail
      else m.world.console.input.pending := by
  simp only [sharing.hears_iff]
  rcases sharing.turn.2 with ⟨idle, device⟩ | ⟨action, doing, turn⟩
  · have same : m.step.world.console.input.pending = m.world.console.input.pending :=
      congrArg Device.unread device
    simp [same, idle]
  · have unread := turn.unread
    simp only [doing, Option.some_inj]
    exact unread

/-- The file does not shrink, and bytes of it that a step does not write keep their value. -/
theorem Sharing.content_step (sharing : m.Sharing config location) :
    (m.world.content?.getD []).length ≤ (m.step.world.content?.getD []).length ∧
      ∀ index, (m.Performs .output .file → m.world.offset? ≠ some index) →
        (m.step.world.content?.getD [])[index]? = (m.world.content?.getD [])[index]? := by
  have same (kept : m.step.world.content?.getD [] = m.world.content?.getD []) :
      (m.world.content?.getD []).length ≤ (m.step.world.content?.getD []).length ∧
        ∀ index, (m.Performs .output .file → m.world.offset? ≠ some index) →
          (m.step.world.content?.getD [])[index]? = (m.world.content?.getD [])[index]? := by
    rw [kept]
    exact ⟨Nat.le_refl _, fun _ _ => rfl⟩
  rcases sharing.turn.2 with ⟨-, device⟩ | ⟨action, doing, turn⟩
  · exact same (congrArg (·.content.getD []) device)
  · rcases turn.content with ⟨bytes, offset, rfl, target, content, live, after⟩ | ⟨-, after⟩ | after
    · obtain ⟨bytes', offset', content', live', within⟩ := sharing.live target
      obtain rfl : bytes = bytes' := Option.some.inj (content.symm.trans content')
      obtain rfl : offset = offset' := Option.some.inj (live.symm.trans live')
      have written : m.step.world.content? = some (Files.put bytes offset m.tape.current) := after
      rw [content', written, Option.getD_some, Option.getD_some]
      refine ⟨?_, fun index unwritten => Files.getElem?_put within ?_ _⟩
      · rw [Files.length_put within]
        exact Nat.le_max_left _ _
      · rintro rfl
        exact unwritten ⟨doing, target⟩ live'
    · exact same (by rw [show m.step.world.content? = _ from after]; rfl)
    · exact same (congrArg (·.getD []) after)

/-- A switch to the file creates it where there is none, and starts at its first byte. -/
theorem Sharing.opened_step (sharing : m.Sharing config location)
    (doing : m.doing? = some (.switch Target.file.name)) :
    m.step.world.content? = some (m.world.content?.getD []) ∧ m.step.world.offset? = some 0 := by
  have turn := sharing.turn_of_doing doing
  generalize switch : Action.switch Target.file.name = action at turn
  generalize device : m.step.world.device = after at turn
  cases turn with
  | load => exact ⟨congrArg Device.content device, congrArg Device.offset device⟩
  | leave other => exact absurd (Target.eq_of_name (Action.switch.inj switch)).symm other
  | rest _ _ stays => exact absurd switch.symm (stays .file)
  | print | store | fetch | hear => simp at switch

/-- Output into the file. -/
theorem Sharing.written_step (sharing : m.Sharing config location) (performs : m.Performs .output .file)
    {bytes : List UInt8} {offset : Nat} (content : m.world.content? = some bytes)
    (live : m.world.offset? = some offset) : m.step.world.offset? = some (offset + 1) ∧
      m.step.world.content? = some (Files.put bytes offset m.tape.current) := by
  have turn := sharing.turn_of_doing performs.1
  have target : m.world.device.target = .file := performs.2
  generalize device : m.step.world.device = after at turn
  cases turn with
  | store _ content' live' =>
    obtain rfl := Option.some.inj (content'.symm.trans content)
    obtain rfl := Option.some.inj (live'.symm.trans live)
    exact ⟨congrArg Device.offset device, congrArg Device.content device⟩
  | print std => simp [target] at std
  | rest mute => exact absurd target (mute rfl).2

/-- Input from the file. -/
theorem Sharing.fetched_step (sharing : m.Sharing config location) (performs : m.Performs .input .file)
    {bytes : List UInt8} {offset : Nat} (content : m.world.content? = some bytes)
    (live : m.world.offset? = some offset) : m.step.tape.current = (bytes[offset]?).getD 0 ∧
      m.step.world.offset? = some (if offset < bytes.length then offset + 1 else offset) := by
  have turn := sharing.turn_of_doing performs.1
  have target : m.world.device.target = .file := performs.2
  have found : m.world.device.next = (bytes[offset]?).getD 0 := by
    have content' : m.world.device.content = some bytes := content
    have live' : m.world.device.offset = some offset := live
    simp only [Device.next, target, content', live']
  refine ⟨(sharing.received performs.1).trans found, ?_⟩
  generalize device : m.step.world.device = after at turn
  cases turn with
  | fetch _ content' live' =>
    obtain rfl := Option.some.inj (content'.symm.trans content)
    obtain rfl := Option.some.inj (live'.symm.trans live)
    exact congrArg Device.offset device
  | hear other => exact absurd target other
  | rest _ deaf => exact absurd rfl deaf

/-- Input from the console. -/
theorem Sharing.heard_step (sharing : m.Sharing config location) (hears : m.ReadsConsole) :
    m.step.tape.current = m.world.console.input.pending.head?.getD 0 := by
  obtain ⟨doing, other⟩ := sharing.hears_iff.mp hears
  rw [sharing.received doing]
  unfold Device.next
  split
  next file _ _ => exact absurd file other
  next => rfl

/-- Nothing but output into the file and a switch to it changes its bytes. -/
theorem Sharing.kept_step (sharing : m.Sharing config location)
    (unwritten : ¬ m.Performs .output .file)
    (unopened : m.doing? ≠ some (.switch Target.file.name)) :
    m.step.world.content? = m.world.content? := by
  rcases sharing.turn.2 with ⟨-, device⟩ | ⟨action, doing, turn⟩
  · exact congrArg Device.content device
  · rcases turn.content with ⟨_, _, rfl, target, -⟩ | ⟨rfl, -⟩ | after
    · exact absurd ⟨doing, target⟩ unwritten
    · exact absurd doing unopened
    · exact after

/-- Nothing but output and input moves the offset while the file is active. -/
theorem Sharing.still_step (sharing : m.Sharing config location)
    (unwritten : ¬ m.Performs .output .file)
    (unread : ¬ m.Performs .input .file) (stays : ∀ name, m.doing? ≠ some (.switch name)) :
    m.step.world.offset? = m.world.offset? := by
  rcases sharing.turn.2 with ⟨-, device⟩ | ⟨action, doing, turn⟩
  · exact congrArg Device.offset device
  · refine turn.still (fun name same => stays name (same ▸ doing)) fun moves target => ?_
    rcases moves with rfl | rfl
    · exact unwritten ⟨doing, target⟩
    · exact unread ⟨doing, target⟩

/-- Nothing but a switch changes the target. -/
theorem Sharing.stayed_step (sharing : m.Sharing config location)
    (stays : ∀ name, m.doing? ≠ some (.switch name)) : m.step.world.target = m.world.target := by
  rcases sharing.turn.2 with ⟨-, device⟩ | ⟨action, doing, turn⟩
  · exact congrArg Device.target device
  · exact turn.stayed fun name same => stays name (same ▸ doing)

/-! ### Whole runs -/

theorem Sharing.iterate (sharing : m.Sharing config location) (n : Nat) :
    (Machine.step^[n] m).Sharing config location := by
  induction n generalizing m with
  | zero => exact sharing
  | succ n ih => exact ih sharing.turn.1

/-- How often a run has read from the console before a step. -/
def heard (run : Nat → Machine) (n : Nat) : Nat := Nat.count (fun k => (run k).ReadsConsole) n

/-- What is on the console is added by the outputs while it is active. -/
theorem Sharing.printed_iterate (sharing : m.Sharing config location) (n : Nat) :
    (Machine.step^[n] m).world.console.out.bytes = m.world.console.out.bytes ++
      (List.range n).filterMap fun k => if (Machine.step^[k] m).Performs .output .std
        then some (Machine.step^[k] m).tape.current else none := by
  induction n with
  | zero => exact (List.append_nil _).symm
  | succ n ih =>
    rw [Function.iterate_succ_apply', (sharing.iterate n).printed_step, ih, List.range_succ,
      List.filterMap_append, List.append_assoc]
    by_cases performs : (Machine.step^[n] m).Performs .output .std <;> simp [performs]

/-- What is left of the input was not read from the console. -/
theorem Sharing.pending_iterate (sharing : m.Sharing config location) (n : Nat) :
    (Machine.step^[n] m).world.console.input.pending =
      m.world.console.input.pending.drop (heard (Machine.step^[·] m) n) := by
  induction n with
  | zero => rfl
  | succ n ih =>
    rw [Function.iterate_succ_apply', (sharing.iterate n).pending_step, ih, heard, heard,
      Nat.count_succ]
    split
    · rw [List.tail_drop]
    · rfl

/-- The file does not shrink, and the bytes of it that are never written keep their value. -/
theorem Sharing.content_iterate (sharing : m.Sharing config location) (n : Nat) :
    (m.world.content?.getD []).length ≤ ((Machine.step^[n] m).world.content?.getD []).length ∧
      ∀ index, (∀ k < n, (Machine.step^[k] m).Performs .output .file →
          (Machine.step^[k] m).world.offset? ≠ some index) →
        ((Machine.step^[n] m).world.content?.getD [])[index]? = (m.world.content?.getD [])[index]? := by
  induction n with
  | zero => exact ⟨Nat.le_refl _, fun _ _ => rfl⟩
  | succ n ih =>
    obtain ⟨longer, kept⟩ := (sharing.iterate n).content_step
    rw [Function.iterate_succ_apply']
    refine ⟨ih.1.trans longer, fun index unwritten => ?_⟩
    rw [kept index (unwritten n (Nat.lt_succ_self n))]
    exact ih.2 index fun k before => unwritten k (Nat.lt_succ_of_lt before)

/-- What a run on an input and files has done with the console and the file at the configured path
before a step, and what it does with them in the step. -/
structure Channels (run : Nat → Machine) (input : List UInt8) (files : Files) (config : Config)
    (n : Nat) : Prop where
  configured : (run n).world.config = config
  /-- the console has the current cells of the outputs while it was active -/
  printed : (run n).world.console.out.bytes = (List.range n).filterMap fun k =>
    if (run k).Performs .output .std then some (run k).tape.current else none
  /-- the console has given one byte of the input for each input while it was active or nothing was -/
  consumed : (run n).world.console.input.pending = input.drop (heard run n)
  /-- an input from the console is the next byte of the input, or zero at its end -/
  received : (run n).Performs .input .std ∨ (run n).Performs .input .tcp →
    (run (n + 1)).tape.current = (input[heard run n]?).getD 0
  /-- output with nowhere to go changes nothing -/
  discarded : (run n).Performs .output .tcp →
    (run (n + 1)).world = (run n).world ∧ (run (n + 1)).tape = (run n).tape
  /-- a target is active from a switch to it on -/
  switched : ∀ target : Target, (run n).doing? = some (.switch target.name) →
    (run (n + 1)).world.target = target
  stayed : (∀ name, (run n).doing? ≠ some (.switch name)) →
    (run (n + 1)).world.target = (run n).world.target
  /-- a switch creates the file where there is none, and starts at its first byte -/
  opened : (run n).doing? = some (.switch Target.file.name) →
    (run (n + 1)).world.content? = some ((run n).world.content?.getD []) ∧
      (run (n + 1)).world.offset? = some 0
  /-- while the file is active its offset is not beyond its end -/
  within : (run n).world.target = .file → ∃ bytes offset, (run n).world.content? = some bytes ∧
    (run n).world.offset? = some offset ∧ offset ≤ bytes.length
  /-- output replaces the byte at the offset, or extends the file by one byte at its end -/
  written : ∀ bytes offset, (run n).Performs .output .file → (run n).world.content? = some bytes →
    (run n).world.offset? = some offset → (run (n + 1)).world.offset? = some (offset + 1) ∧
      (run (n + 1)).world.content? =
        some (bytes.take offset ++ (run n).tape.current :: bytes.drop (offset + 1))
  /-- input is the byte at the offset, or zero at the end of the file, where nothing moves -/
  fetched : ∀ bytes offset, (run n).Performs .input .file → (run n).world.content? = some bytes →
    (run n).world.offset? = some offset → (run (n + 1)).tape.current = (bytes[offset]?).getD 0 ∧
      (run (n + 1)).world.offset? = some (if offset < bytes.length then offset + 1 else offset)
  /-- nothing else changes the bytes of the file -/
  kept : ¬ (run n).Performs .output .file → (run n).doing? ≠ some (.switch Target.file.name) →
    (run (n + 1)).world.content? = (run n).world.content?
  /-- nothing else moves the offset -/
  still : ¬ (run n).Performs .output .file → ¬ (run n).Performs .input .file →
    (∀ name, (run n).doing? ≠ some (.switch name)) → (run (n + 1)).world.offset? = (run n).world.offset?
  /-- the file does not shrink -/
  grown : ∀ k ≤ n,
    ((run k).world.content?.getD []).length ≤ ((run n).world.content?.getD []).length
  /-- bytes that are never written keep the value that they had -/
  untouched : ∀ index, (∀ k < n, (run k).Performs .output .file → (run k).world.offset? ≠ some index) →
    ((run n).world.content?.getD [])[index]? = ((files.content? config.filePath).getD [])[index]?
  /-- a run that has ended leaves what is on the console and in the file -/
  left : ∀ path e, (run n).ending? path = some e → e.output = (run n).world.console.out.bytes ∧
    e.files.content? config.filePath = (run n).world.content?

/-- Output goes to the active target, and the file is one sequence of bytes with one offset. A program
that has no `io http` runs on any input, with any files where the configured path can be opened. What is
on the console are the current cells of the outputs while it was active, output on `tcp` changes
nothing, and the inputs on both read the one input in order. The offset in the file is zero after each
`io file`, and each output and each input that is not at its end moves it by one byte. -/
theorem output_is_routed {program : Block} (offline : program.isOffline = true) (files : Files)
    (config : Config) (opens : ∃ opened, files.openShared config.filePath = .ok opened)
    (session : Option Debug.Session) (input : List UInt8) (n : Nat) :
    Channels (fun k => step^[k] (runOn program files config session input)) input files config n := by
  obtain ⟨opened, opens⟩ := opens
  obtain ⟨location, sharing⟩ := sharing_runOn offline opens session input
  let run (k : Nat) : Machine := step^[k] (runOn program files config session input)
  have here : (run n).Sharing config location := sharing.iterate n
  have later : run (n + 1) = (run n).step := Function.iterate_succ_apply' step n _
  have inputs : (run n).world.console.input.pending = input.drop (heard run n) :=
    sharing.pending_iterate n
  exact {
    configured := here.shares.configured
    printed := sharing.printed_iterate n
    consumed := inputs
    received := fun hears => by
      rw [← List.head?_drop, ← inputs]
      exact (congrArg (·.tape.current) later).trans (here.heard_step hears)
    discarded := fun performs => by
      have discards := here.discards performs
      rwa [← later] at discards
    switched := fun target doing =>
      (congrArg (·.world.target) later).trans (here.turn_of_doing doing).switched
    stayed := fun stays => (congrArg (·.world.target) later).trans (here.stayed_step stays)
    opened := fun doing => by
      have opens := here.opened_step doing
      rwa [← later] at opens
    within := here.live
    written := fun bytes offset performs content live => by
      have writes := here.written_step performs content live
      rwa [← later] at writes
    fetched := fun bytes offset performs content live => by
      have fetches := here.fetched_step performs content live
      rwa [← later] at fetches
    kept := fun unwritten unopened =>
      (congrArg (·.world.content?) later).trans (here.kept_step unwritten unopened)
    still := fun unwritten unread stays =>
      (congrArg (·.world.offset?) later).trans (here.still_step unwritten unread stays)
    grown := fun k before => by
      have longer := ((sharing.iterate k).content_iterate (n - k)).1
      rwa [← Function.iterate_add_apply, Nat.sub_add_cancel before] at longer
    untouched := (sharing.content_iterate n).2
    left := fun path e ended => by
      obtain ⟨outcome, halted⟩ := outcome_of_ending ended
      obtain rfl := Option.some.inj ((here.ending halted path).symm.trans ended)
      refine ⟨rfl, ?_⟩
      have kept := (here.shares.place.of_nodes
        (Files.nodes_foldl_close (run n).world.opened (run n).world.files)).content?
      rwa [here.shares.configured] at kept }

/-- A program that opens a file that is not there yet. -/
theorem output_is_routed_new_file :
    let program : Block := .act ⟨⟨1, 1⟩, false⟩ (.switch Target.file.name) .nil
    let config : Config := { filePath := "f" }
    let run := runOn program {} config none []
    program.isOffline = true ∧ (∃ opened, ({} : Files).openShared config.filePath = .ok opened) ∧
      (step^[1] run).world.content? = none ∧ (step^[2] run).world.target = .file ∧
      (step^[2] run).world.content? = some [] ∧ (step^[2] run).world.offset? = some 0 := by
  intro program config run
  have names : Files.names "f" = (["f"], false) := by
    have pieces : "f".splitOn "/" = ["f"] := by
      rw [String.splitOn, if_neg (by decide), String.splitOnAux, if_neg (by decide), if_neg (by decide),
        String.splitOnAux, if_pos (by decide)]
      decide
    simp [Files.names, pieces]
  have short : (Text.Utf8.encodeString "f").length = 1 := by decide
  have place : ({} : Files).At "f" ["f"] none := by
    refine ⟨?_, rfl⟩
    simp [Files.locate, names, short, Files.follow, Files.pathLimit, Files.nameLimit]
  have opens : ∃ opened, ({} : Files).openShared config.filePath = .ok opened := by
    obtain ⟨files, id, opens, -⟩ := place.openShared
    exact ⟨(files, id), opens⟩
  have offline : program.isOffline = true := rfl
  have first := output_is_routed offline {} config opens none [] 1
  have before : (step^[1] run).world.content? = none := place.content?
  obtain ⟨content, offset⟩ := first.opened rfl
  exact ⟨offline, opens, before, first.switched .file rfl, content.trans (by rw [before]; rfl), offset⟩

end Machine
end TapeLang

import TapeLang.Proofs.SharedFile
import TapeLang.Proofs.Wiring.Ending

/-!
Devices. What a run has to do with the console and with the file at the configured path is a device
(`World.device`): the active target, what was printed and what is still to be read, the bytes of the
file, and the offset at which they are read and written next. Output, input and a switch each take one
turn of it (`World.Shares.broadcast`, `World.Shares.read`, `World.Shares.switch`).
-/
namespace TapeLang

open Host (Files Handle)
open Source (Action Target)

/-- Targets of one name are the same. -/
theorem Source.Target.eq_of_name {target other : Target} (names : target.name = other.name) :
    target = other := by
  have found : ofName? target.name = some other := Target.ofName?_eq_some_iff.mpr names
  exact Option.some.inj ((Target.ofName?_eq_some_iff.mpr rfl).symm.trans found)

/-! ## Devices -/

/-- The active target, what is on the console, and what is in the file. -/
structure Device where
  target : Target
  printed : List UInt8
  unread : List UInt8
  /-- the bytes of the file, if there is one -/
  content : Option (List UInt8)
  /-- where the file is read and written next, while it is live -/
  offset : Option Nat

namespace Device

variable {d e : Device} {value : UInt8} {action : Action}

/-- The byte that is read next. -/
def next (d : Device) : UInt8 :=
  match d.target, d.content, d.offset with
  | .file, some bytes, some offset => bytes[offset]?.getD 0
  | _, _, _ => d.unread.head?.getD 0

/-- What an action does to a device while the current cell holds a value. -/
inductive Turn (d : Device) (value : UInt8) : Action → Device → Prop where
  | print (target : d.target = .std) : Turn d value .output { d with printed := d.printed ++ [value] }
  | store {bytes : List UInt8} {offset : Nat} (target : d.target = .file)
      (content : d.content = some bytes) (live : d.offset = some offset) :
      Turn d value .output
        { d with content := some (Files.put bytes offset value), offset := some (offset + 1) }
  | fetch {bytes : List UInt8} {offset : Nat} (target : d.target = .file)
      (content : d.content = some bytes) (live : d.offset = some offset) :
      Turn d value .input
        { d with offset := some (if offset < bytes.length then offset + 1 else offset) }
  | hear (target : d.target ≠ .file) : Turn d value .input { d with unread := d.unread.tail }
  | load : Turn d value (.switch Target.file.name)
      { d with target := .file, content := some (d.content.getD []), offset := some 0 }
  | leave {target : Target} (other : target ≠ .file) :
      Turn d value (.switch target.name) { d with target, offset := none }
  | rest {action : Action} (mute : action = .output → d.target ≠ .std ∧ d.target ≠ .file)
      (deaf : action ≠ .input) (stays : ∀ target : Target, action ≠ .switch target.name) :
      Turn d value action d

/-- Output while the console is active is added to what is on it. -/
theorem Turn.printed (turn : d.Turn value action e) :
    e.printed = d.printed ++ if action = .output ∧ d.target = .std then [value] else [] := by
  cases turn with
  | rest mute =>
    have quiet : ¬ (action = .output ∧ d.target = .std) := fun both => (mute both.1).1 both.2
    simp [quiet]
  | print target | store target | fetch target | hear target => simp [target]
  | load | leave => simp

/-- Input takes a byte from the console while the file is not active. -/
theorem Turn.unread (turn : d.Turn value action e) :
    e.unread = if action = .input ∧ d.target ≠ .file then d.unread.tail else d.unread := by
  cases turn with
  | rest _ deaf => simp [deaf]
  | print target | store target | fetch target | hear target => simp [target]
  | load | leave => simp

/-- Output while the file is active replaces a byte of it, or extends it. A switch creates it where
there is none, and nothing else changes its bytes. -/
theorem Turn.content (turn : d.Turn value action e) :
    (∃ bytes offset, action = .output ∧ d.target = .file ∧ d.content = some bytes ∧
      d.offset = some offset ∧ e.content = some (Files.put bytes offset value)) ∨
    action = .switch Target.file.name ∧ e.content = some (d.content.getD []) ∨
    e.content = d.content := by
  cases turn with
  | store target content live => exact .inl ⟨_, _, rfl, target, content, live, rfl⟩
  | load => exact .inr (.inl ⟨rfl, rfl⟩)
  | print | fetch | hear | leave | rest => exact .inr (.inr rfl)

/-- A switch makes its target the active one. -/
theorem Turn.switched {target : Target} (turn : d.Turn value (.switch target.name) e) :
    e.target = target := by
  generalize switch : Action.switch target.name = action at turn
  cases turn with
  | load | leave => exact (Target.eq_of_name (Action.switch.inj switch)).symm
  | rest _ _ stays => exact absurd switch.symm (stays target)
  | print | store | fetch | hear => simp at switch

/-- Nothing else changes the target. -/
theorem Turn.stayed (turn : d.Turn value action e) (other : ∀ name, action ≠ .switch name) :
    e.target = d.target := by
  cases turn with
  | load | leave => exact absurd rfl (other _)
  | print | store | fetch | hear | rest => rfl

/-- Only output and input move the offset in the file, and only a switch opens or leaves it. -/
theorem Turn.still (turn : d.Turn value action e) (other : ∀ name, action ≠ .switch name)
    (away : action = .output ∨ action = .input → d.target ≠ .file) : e.offset = d.offset := by
  cases turn with
  | load | leave => exact absurd rfl (other _)
  | store target => exact absurd target (away (.inl rfl))
  | fetch target => exact absurd target (away (.inr rfl))
  | print | hear | rest => rfl

end Device

/-! ## Worlds -/

namespace World

variable {w v : World} {config : Config} {location : Host.Location}

/-- The bytes of the file at the configured path, if there is one. -/
def content? (w : World) : Option (List UInt8) := w.files.content? w.config.filePath

/-- The offset of the open file, while it is live. -/
def offset? (w : World) : Option Nat :=
  match w.endpoints with
  | [.file id] => w.files.handles[id]?.map (·.offset)
  | _ => none

/-- The device that a world is. -/
def device (w : World) : Device where
  target := w.target
  printed := w.console.out.bytes
  unread := w.console.input.pending
  content := w.content?
  offset := w.offset?

/-- The configured path leads to a place, and the live file is the one there. -/
structure Shares (w : World) (config : Config) (location : Host.Location) : Prop where
  configured : w.config = config
  place : w.files.At w.config.filePath location w.content?
  live : ∀ id, w.endpoints = [.file id] → ∃ handle bytes, w.files.handles[id]? = some handle ∧
    handle.location = location ∧ w.content? = some bytes ∧ handle.offset ≤ bytes.length

theorem Shares.of_same (shares : w.Shares config location) (files : v.files = w.files)
    (same : v.config = w.config)
    (endpoints : v.endpoints = w.endpoints ∨ ∀ id, v.endpoints ≠ [.file id]) :
    v.Shares config location := by
  have content : v.content? = w.content? := by simp only [content?, files, same]
  refine ⟨same.trans shares.configured, ?_, fun id live => ?_⟩
  · rw [files, same, content]
    exact shares.place
  rcases endpoints with same | other
  · rw [files, content]
    exact shares.live id (same.symm.trans live)
  · exact absurd live (other id)

/-- Where the file at the place is live, its bytes and its offset are those of the device. -/
theorem shares_of_live {id : Nat} {handle : Handle} {bytes : List UInt8}
    (configured : v.config = config)
    (held : v.files.At v.config.filePath location (some bytes)) (live : v.endpoints = [.file id])
    (opened : v.files.handles[id]? = some handle) (there : handle.location = location)
    (within : handle.offset ≤ bytes.length) :
    v.Shares config location ∧ v.device =
      ⟨v.target, v.console.out.bytes, v.console.input.pending, some bytes, some handle.offset⟩ := by
  have content : v.content? = some bytes := held.content?
  refine ⟨⟨configured, content ▸ held, fun other live' => ?_⟩, ?_⟩
  · obtain rfl : id = other := by simpa [live] using live'
    exact ⟨handle, bytes, opened, there, content, within⟩
  · simp only [device, content, offset?, live, opened, Option.map_some]

/-- The live file is the one at the place. -/
theorem Shares.of_file {id : Nat} (shares : w.Shares config location)
    (live : w.endpoints = [.file id]) :
    ∃ handle bytes, w.files.At w.config.filePath location (some bytes) ∧
      w.files.handles[id]? = some handle ∧ handle.location = location ∧ handle.offset ≤ bytes.length ∧
      w.device =
        ⟨w.target, w.console.out.bytes, w.console.input.pending, some bytes, some handle.offset⟩ := by
  obtain ⟨handle, bytes, opened, there, content, within⟩ := shares.live id live
  have held := content ▸ shares.place
  have device := (shares_of_live shares.configured held live opened there within).2
  exact ⟨handle, bytes, held, opened, there, within, device⟩

/-- Output goes to the console or into the file, or nowhere. -/
theorem Shares.broadcast (shares : w.Shares config location) (wired : w.Wired)
    (own : w.console.forwarded = false) (sound : w.console.Sound) (value : UInt8) :
    (w.broadcast value).1.Shares config location ∧
      w.device.Turn value .output (w.broadcast value).1.device := by
  rcases wired with ⟨unopened, target, live⟩ | @⟨id, unopened, target, live⟩ | ⟨unopened, target, live⟩
  · have written : w.writeConsole .out [value] = .ok (w.withConsole
        { w.console with out := ⟨[value] :: w.console.out.chunks, none⟩ }) := by
      simp [writeConsole, own, Host.Sink.write, sound.out, Host.spend, Except.map, withConsole]
    have printed :
        (w.withConsole { w.console with out := ⟨[value] :: w.console.out.chunks, none⟩ }).device =
          { w.device with printed := w.device.printed ++ [value] } := by
      simp [device, withConsole, content?, offset?, Host.Sink.bytes]
    rw [broadcast_std unopened live, written]
    refine ⟨shares.of_same rfl rfl (.inl rfl), ?_⟩
    rw [printed]
    exact .print target
  · obtain ⟨handle, bytes, place, opened, there, within, before⟩ := shares.of_file live
    obtain ⟨held, moved⟩ := place.writeByte opened there within value
    have room : handle.offset + 1 ≤ (Files.put bytes handle.offset value).length := by
      rw [Files.length_put within]
      exact Nat.le_max_right _ _
    obtain ⟨shares', after⟩ := shares_of_live (v := { w with files := w.files.writeByte id value })
      shares.configured held live moved there room
    rw [broadcast_file unopened live]
    refine ⟨shares', ?_⟩
    rw [before, after]
    exact .store target rfl rfl
  · rw [broadcast_tcp unopened live]
    have nowhere : w.device.target = .tcp := target
    exact ⟨shares, .rest (fun _ => by simp [nowhere]) (by simp) (by simp)⟩

/-- Input comes from the file while it is active, and from the console otherwise. -/
theorem Shares.read (shares : w.Shares config location) (wired : w.Wired) (sound : w.console.Sound)
    (value : UInt8) :
    w.read.1.Shares config location ∧ w.device.Turn value .input w.read.1.device ∧
      w.read.2 = .ok w.device.next := by
  have console (live : w.endpoints = [.console] ∨ w.endpoints = []) (other : w.target ≠ .file) :
      w.read.1.Shares config location ∧ w.device.Turn value .input w.read.1.device ∧
        w.read.2 = .ok w.device.next := by
    have found : w.console.input.read = .ok (w.console.input.pending.head?,
        ⟨w.console.input.pending.tail, w.console.input.calls + 1, none⟩) := by
      simp [Host.Source.read, sound.input, Host.spend]
    rw [read_console wired.unopened live found]
    refine ⟨shares.of_same rfl rfl (.inl rfl), .hear other, ?_⟩
    have kind : w.device.target ≠ .file := other
    simp only [Device.next]
    split
    next file _ _ => exact absurd file kind
    next => rfl
  rcases wired with ⟨-, target, live⟩ | @⟨id, unopened, target, live⟩ | ⟨-, target, live⟩
  · exact console (.inl live) (by simp [target])
  · obtain ⟨handle, bytes, place, opened, there, within, before⟩ := shares.of_file live
    obtain ⟨byte, held, moved⟩ := place.readByte opened there
    obtain ⟨shares', after⟩ := shares_of_live (v := { w with files := (w.files.readByte id).2 })
      shares.configured held live moved there (by dsimp only; split <;> omega)
    rw [read_file unopened live, byte]
    refine ⟨shares', ?_, ?_⟩
    · rw [before, after]
      exact .fetch target rfl rfl
    · rw [before]
      simp only [Device.next, target]
  · exact console (.inr live) (by simp [target])

/-- A switch to a target makes it the active one, and a switch to another name does nothing. -/
theorem Shares.switch (shares : w.Shares config location) (away : w.target ≠ .http) {name : String}
    (other : name ≠ Target.http.name) (value : UInt8) :
    (w.switch name).1.Shares config location ∧
      w.device.Turn value (.switch name) (w.switch name).1.device := by
  simp only [World.switch, enter, away, ↓reduceIte]
  cases found : Target.ofName? name with
  | none =>
    refine ⟨shares, .rest (by simp) (by simp) fun target same => ?_⟩
    rw [Action.switch.inj same, Target.ofName?_eq_some_iff.mpr rfl] at found
    simp at found
  | some target =>
    obtain rfl := Target.ofName?_eq_some_iff.mp found
    cases target with
    | std => exact ⟨shares.of_same rfl rfl (.inr (by simp [setConsole])), .leave (by simp)⟩
    | tcp => exact ⟨shares.of_same rfl rfl (.inr (by simp [setTcp])), .leave (by simp)⟩
    | http => exact absurd rfl other
    | file =>
      obtain ⟨files, id, opens, held, opened⟩ := shares.place.openShared
      let v := { w with
        files, opened := w.opened ++ [id], target := .file, endpoints := [.file id] }
      obtain ⟨shares', after⟩ :=
        shares_of_live (v := v) shares.configured held rfl opened rfl (Nat.zero_le _)
      dsimp only
      rw [openFile, opens]
      refine ⟨shares', ?_⟩
      have same : v.device = { w.device with
          target := .file, content := some (w.device.content.getD []), offset := some 0 } := after
      exact same ▸ .load

end World
end TapeLang

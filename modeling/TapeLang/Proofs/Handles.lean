import Mathlib.Data.List.Nodup
import TapeLang.Proofs.Offline

/-!
The handles of a run. Each file that a run opens is put on the list of what is to be closed, and nothing
closes it earlier (`Machine.holds_step`), so when everything is released each handle is closed once
(`World.Holds.close`).
-/
namespace TapeLang

open Host (Files Handle)

namespace Host.Files

/-- How often each handle was closed, in the order they were opened. -/
def closings (f : Files) : List Nat := f.handles.toList.map (·.closings)

variable {f g : Files}

@[simp] theorem length_closings (f : Files) : f.closings.length = f.handles.size := by
  simp [closings]

/-- Moving the offset of a handle closes nothing. -/
theorem closings_moved {id : Nat} {handle : Handle} (there : f.handles[id]? = some handle)
    (offset : Nat) :
    (f.handles.setIfInBounds id { handle with offset }).toList.map (·.closings) = f.closings := by
  apply List.ext_getElem?
  intro k
  simp only [closings, List.getElem?_map, Array.getElem?_toList, Array.getElem?_setIfInBounds]
  split
  next same =>
    obtain rfl := same
    obtain ⟨inside, here⟩ := Array.getElem?_eq_some_iff.mp there
    simp [inside, here]
  next => rfl

theorem handles_setNode (f : Files) (location : Location) (node : Node) :
    (f.setNode location node).handles = f.handles := by
  unfold setNode
  split <;> rfl

theorem closings_writeByte (f : Files) (id : Nat) (byte : UInt8) :
    (f.writeByte id byte).closings = f.closings := by
  unfold writeByte
  split
  · rfl
  next handle there =>
    rw [← closings_moved there (handle.offset + 1)]
    dsimp only [closings]
    rw [handles_setNode]

theorem closings_readByte (f : Files) (id : Nat) : (f.readByte id).2.closings = f.closings := by
  unfold readByte
  split
  · rfl
  next handle there =>
    split
    · rfl
    · exact closings_moved there (handle.offset + 1)

/-- A file that is opened gets the next handle. -/
theorem closings_openShared {path : String} {id : Nat} (opened : f.openShared path = .ok (g, id)) :
    g.closings = f.closings ++ [0] ∧ id = f.handles.size := by
  have pushed (tree : Files) (same : tree.handles = f.handles) (location : Location)
      (done : ({ tree with handles := tree.handles.push { location } }, tree.handles.size) = (g, id)) :
      g.closings = f.closings ++ [0] ∧ id = f.handles.size := by
    obtain ⟨rfl, rfl⟩ := Prod.mk.inj done
    simp [closings, same]
  unfold openShared at opened
  split at opened
  · simp at opened
  · simp at opened
  next location _ =>
    dsimp only at opened
    split at opened
    · simp at opened
    · exact pushed f rfl location (Except.ok.inj opened)
    · exact pushed _ (handles_setNode f location _) location (Except.ok.inj opened)

/-- Closing a handle counts for this handle alone. -/
theorem getElem?_closings_close (f : Files) (id k : Nat) :
    (f.close id).closings[k]? = f.closings[k]?.map (· + if id = k then 1 else 0) := by
  simp only [closings, close, List.getElem?_map, Array.getElem?_toList, Array.getElem?_modify]
  split
  next same => simp [Option.map_map, Function.comp_def]
  next other => cases f.handles[k]? <;> simp

/-- A handle was closed as often as it stands on the list of what is closed. -/
theorem getElem?_closings_foldl (ids : List Nat) (f : Files) (k : Nat) :
    (ids.foldl close f).closings[k]? = f.closings[k]?.map (· + ids.count k) := by
  induction ids generalizing f with
  | nil => simp
  | cons id ids ih =>
    rw [List.foldl_cons, ih, getElem?_closings_close, Option.map_map]
    congr 1
    funext before
    simp only [Function.comp_apply, List.count_cons, beq_iff_eq]
    omega

end Host.Files

namespace World

variable {w v : World}

/-- Every handle is on the list of what is to be closed, once, and none has been closed. -/
structure Holds (w : World) : Prop where
  listed : w.opened = List.range w.files.handles.size
  unclosed : w.files.closings = List.replicate w.files.handles.size 0

theorem Holds.of_closings (holds : w.Holds) (files : v.files.closings = w.files.closings)
    (opened : v.opened = w.opened) : v.Holds := by
  have size : v.files.handles.size = w.files.handles.size := by
    rw [← Files.length_closings, files, Files.length_closings]
  exact ⟨by rw [opened, size, holds.listed], by rw [files, size, holds.unclosed]⟩

theorem Holds.of_same (holds : w.Holds) (files : v.files = w.files) (opened : v.opened = w.opened) :
    v.Holds :=
  holds.of_closings (by rw [files]) opened

theorem Holds.writeByte (holds : w.Holds) (written : w.writeByte byte endpoint = .ok v) : v.Holds := by
  cases endpoint with
  | console =>
    obtain ⟨console, session, rfl⟩ := writeConsole_world written
    exact holds.of_same rfl rfl
  | file id =>
    obtain rfl := Except.ok.inj written
    exact holds.of_closings (Files.closings_writeByte w.files id byte) rfl
  | connection id =>
    obtain rfl := Except.ok.inj written
    exact holds.of_same rfl rfl

theorem Holds.writeEach (holds : w.Holds) (byte : UInt8) (endpoints : List Endpoint) :
    (w.writeEach byte endpoints).1.Holds := by
  induction endpoints generalizing w with
  | nil => exact holds
  | cons endpoint rest ih =>
    unfold World.writeEach
    split
    next v written => exact ih (holds.writeByte written)
    next => exact holds

theorem Holds.drain (holds : w.Holds) : w.drain.Holds := by
  unfold World.drain
  split
  · exact holds
  · exact holds.of_same rfl rfl

theorem Holds.broadcast (holds : w.Holds) (byte : UInt8) : (w.broadcast byte).1.Holds :=
  holds.drain.writeEach byte w.drain.endpoints

theorem Holds.readLive (holds : w.Holds) : w.readLive.1.Holds := by
  unfold World.readLive
  split
  next id _ => exact holds.of_closings (Files.closings_readByte w.files id) rfl
  · exact holds.of_same rfl rfl
  all_goals
    unfold readConsole
    split
    next done =>
      obtain ⟨_, _, same⟩ := ok_of_map_ok done
      obtain ⟨-, rfl⟩ := Prod.mk.inj same
      exact holds.of_same rfl rfl
    next => exact holds

theorem Holds.read (holds : w.Holds) : w.read.1.Holds := holds.drain.readLive

theorem Holds.openFile (holds : w.Holds) : w.openFile.1.Holds := by
  unfold World.openFile
  split
  next files id opened =>
    obtain ⟨closings, rfl⟩ := Files.closings_openShared opened
    have size : files.handles.size = w.files.handles.size + 1 := by
      rw [← Files.length_closings, closings]
      simp
    refine ⟨?_, ?_⟩
    · dsimp only
      rw [size, List.range_succ, holds.listed]
    · dsimp only
      rw [closings, size, holds.unclosed, List.replicate_succ']
  · exact holds
  · exact holds

/-- A switch to another target than the network opens one file or none. -/
theorem Holds.switch (holds : w.Holds) (away : w.target ≠ .http) {name : String}
    (other : name ≠ Source.Target.http.name) : (w.switch name).1.Holds := by
  simp only [World.switch, enter, away, ↓reduceIte]
  split
  · exact holds.of_same rfl rfl
  · exact holds.openFile
  next found => exact absurd (Source.Target.ofName?_eq_some_iff.mp found) other
  · exact holds.of_same rfl rfl
  · exact holds

/-- When everything is released, each handle has been closed once. -/
theorem Holds.close (holds : w.Holds) (closes : w.closeListener.2 = .ok ()) :
    ∀ handle ∈ w.close.1.files.handles, handle.closings = 1 := by
  have files : w.close.1.files = w.opened.foldl Files.close w.files := by
    have kept : w.closeListener.1.files = w.files ∧ w.closeListener.1.opened = w.opened := by
      unfold closeListener
      split
      · exact ⟨rfl, rfl⟩
      · split <;> exact ⟨rfl, rfl⟩
    simp only [World.close, closes, kept]
  intro handle member
  obtain ⟨k, bound, rfl⟩ := Array.mem_iff_getElem.mp member
  have counted := Files.getElem?_closings_foldl w.opened w.files k
  rw [← files, holds.unclosed, holds.listed] at counted
  have here : w.close.1.files.closings[k]? = some w.close.1.files.handles[k].closings := by
    simp [Files.closings, bound]
  rw [here] at counted
  obtain ⟨before, first, once⟩ := Option.map_eq_some_iff.mp counted.symm
  obtain ⟨small, rfl⟩ := List.getElem?_eq_some_iff.mp first
  rw [List.length_replicate] at small
  rw [List.getElem_replicate, List.count_eq_one_of_mem List.nodup_range (List.mem_range.mpr small)]
    at once
  exact once.symm

end World

namespace Machine

variable {m : Machine}

/-- A step away from the network closes no handle, and each file that it opens is to be closed. -/
theorem Offline.holds_step (offline : m.Offline) (holds : m.world.Holds) : m.step.world.Holds := by
  rcases step_world with ⟨session, same⟩ | ⟨head, action, next, -, rest, same⟩
  · rw [same]
    exact holds.of_same rfl rfl
  · rw [same]
    rcases perform_world offline.away head action next with kept | ⟨-, sent⟩ | ⟨-, read⟩ |
      ⟨name, rfl, switched⟩
    · rwa [kept]
    · rw [sent]
      exact holds.broadcast m.tape.current
    · rw [read]
      exact holds.read
    · rw [switched]
      exact holds.switch offline.away (bne_iff_ne.mp (offline.allowed rest))

end Machine
end TapeLang

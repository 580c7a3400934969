import TapeLang.World

/-!
Worlds with nobody at the console. What happens to listeners and connections does not depend on the
console and the debug session, so it can be followed in a world that has neither: its console drops
what is written and gives nothing to read, and no session is attached (`World.mute`). Every operation
does the same there to everything else.
-/
namespace TapeLang.World

open Source (Target)

variable {w v : World}

/-- The same world, with a console that drops everything and no debug session. -/
def mute (w : World) : World :=
  { w with console := { forwarded := true, input := { budget := some 0 } }, session := none }

/-- Two worlds that are the same with nobody at the console are so but for that. -/
theorem eq_of_mute (same : v.mute = w.mute) : v = { w with console := v.console, session := v.session } := by
  obtain ⟨console, session, files, traffic, config, target, endpoints, listener, opened⟩ := v
  simp only [mute, World.mk.injEq] at same ⊢
  simp [same]

theorem mute_drain (w : World) : w.mute.drain = w.drain.mute := by
  have same : w.mute.listener = w.listener := rfl
  simp only [drain, same]
  cases w.listener <;> rfl

theorem mute_connect (w : World) (body : List UInt8) :
    w.mute.connect body = (w.connect body).map mute := by
  have same : w.mute.listener = w.listener := rfl
  unfold connect
  rw [same]
  cases w.listener with
  | none => rfl
  | some id =>
    have same : w.mute.traffic = w.traffic := rfl
    simp only [same]
    cases (w.traffic.arrive id body).settle <;> rfl

theorem mute_finishCycle (w : World) : w.mute.finishCycle = w.finishCycle.map mute := by
  have same : w.mute.traffic = w.traffic ∧ w.mute.endpoints = w.endpoints := ⟨rfl, rfl⟩
  unfold finishCycle
  rw [same.1, same.2]
  cases w.traffic.rearm with
  | error fault => rfl
  | ok traffic =>
    dsimp only [bind, Except.bind]
    split <;> rfl

/-! ## Reading and writing -/

theorem mute_of_writeConsole {stream : Stream} {bytes : List UInt8}
    (written : w.writeConsole stream bytes = .ok v) : v.mute = w.mute := by
  unfold writeConsole at written
  split at written
  · split at written
    next session _ =>
      cases sent : session.writeThrough bytes stream.name with
      | error error => simp [sent, Except.map] at written
      | ok done =>
        rw [sent] at written
        obtain rfl := Except.ok.inj written
        rfl
    next =>
      obtain rfl := Except.ok.inj written
      rfl
  · split at written
    next =>
      cases sent : w.console.out.write bytes with
      | error error => simp [sent, Except.map] at written
      | ok out =>
        rw [sent] at written
        obtain rfl := Except.ok.inj written
        rfl
    next =>
      cases sent : w.console.err.write bytes with
      | error error => simp [sent, Except.map] at written
      | ok err =>
        rw [sent] at written
        obtain rfl := Except.ok.inj written
        rfl

theorem mute_writeEach_console (w : World) (byte : UInt8) :
    (w.mute.writeEach byte [.console]).1 = (w.writeEach byte [.console]).1.mute := by
  have dropped : (w.mute.writeEach byte [.console]).1 = w.mute := rfl
  rw [dropped]
  unfold writeEach
  cases written : w.writeByte byte .console with
  | error error => rfl
  | ok v => exact (mute_of_writeConsole written).symm

theorem mute_writeEach_elsewhere {endpoints : List Endpoint} (elsewhere : .console ∉ endpoints)
    (w : World) (byte : UInt8) :
    (w.mute.writeEach byte endpoints).1 = (w.writeEach byte endpoints).1.mute := by
  induction endpoints generalizing w with
  | nil => rfl
  | cons endpoint rest ih =>
    have later : .console ∉ rest := fun member => elsewhere (List.mem_cons_of_mem _ member)
    cases endpoint with
    | console => exact absurd List.mem_cons_self elsewhere
    | file handle => exact ih later { w with files := w.files.writeByte handle byte }
    | connection id => exact ih later { w with traffic := w.traffic.write id byte }

/-- A console that fails ends a broadcast, but no other endpoint is live then. -/
theorem mute_broadcast (lone : .console ∈ w.drain.endpoints → w.drain.endpoints = [.console])
    (byte : UInt8) : (w.mute.broadcast byte).1 = (w.broadcast byte).1.mute := by
  simp only [broadcast, mute_drain]
  have same : w.drain.mute.endpoints = w.drain.endpoints := rfl
  rw [same]
  by_cases console : .console ∈ w.drain.endpoints
  · rw [lone console]
    exact mute_writeEach_console w.drain byte
  · exact mute_writeEach_elsewhere console w.drain byte

theorem mute_readLive (w : World) : w.mute.readLive.1 = w.readLive.1.mute := by
  have same : w.mute.endpoints = w.endpoints := rfl
  unfold readLive readConsole
  rw [same]
  cases w.endpoints.head? with
  | none => cases w.console.input.read <;> rfl
  | some endpoint =>
    cases endpoint with
    | console => cases w.console.input.read <;> rfl
    | file | connection => rfl

theorem mute_read (w : World) : w.mute.read.1 = w.read.1.mute := by
  simp only [read, mute_drain, mute_readLive]

/-! ## Switching and closing -/

theorem mute_closeListener (w : World) :
    w.mute.closeListener = (w.closeListener.1.mute, w.closeListener.2) := by
  have same : w.mute.listener = w.listener ∧ w.mute.traffic = w.traffic := ⟨rfl, rfl⟩
  unfold closeListener
  rw [same.1, same.2]
  cases w.listener with
  | none => rfl
  | some id =>
    dsimp only
    cases w.traffic.closeListener id <;> rfl

theorem mute_openFile (w : World) : w.mute.openFile = (w.openFile.1.mute, w.openFile.2) := by
  have same : w.mute.files = w.files ∧ w.mute.config = w.config := ⟨rfl, rfl⟩
  unfold openFile
  rw [same.1, same.2]
  cases w.files.openShared w.config.filePath with
  | ok opened => rfl
  | error error => cases error <;> rfl

theorem mute_openNetwork (w : World) :
    w.mute.openNetwork = (w.openNetwork.1.mute, w.openNetwork.2) := by
  have same : w.mute.traffic = w.traffic ∧ w.mute.config = w.config := ⟨rfl, rfl⟩
  unfold openNetwork
  rw [same.1, same.2]
  cases BindAddress.parse? w.config.httpAddress with
  | none => rfl
  | some address =>
    dsimp only
    cases bindStop? w.config address with
    | some stop => rfl
    | none =>
      dsimp only
      cases w.traffic.openListener (MediaType.ofResource w.config.filePath) <;> rfl

theorem mute_enter (w : World) (name : String) :
    w.mute.enter name = ((w.enter name).1.mute, (w.enter name).2) := by
  unfold enter
  cases Target.ofName? name with
  | none => rfl
  | some target =>
    cases target with
    | std | tcp => rfl
    | file => exact mute_openFile w
    | http => exact mute_openNetwork w

theorem mute_switch (w : World) (name : String) :
    w.mute.switch name = ((w.switch name).1.mute, (w.switch name).2) := by
  have same : w.mute.target = w.target := rfl
  unfold switch
  rw [same]
  by_cases network : w.target = .http
  · simp only [network, ↓reduceIte, mute_closeListener]
    cases w.closeListener.2 with
    | error stop => rfl
    | ok => exact mute_enter w.closeListener.1 name
  · simp only [network, ↓reduceIte]
    exact mute_enter w name

theorem mute_close (w : World) : w.mute.close = (w.close.1.mute, w.close.2) := by
  unfold close
  rw [mute_closeListener]
  dsimp only
  cases w.closeListener.2 <;> rfl

end TapeLang.World

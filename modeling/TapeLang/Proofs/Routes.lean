import TapeLang.Proofs.Offline

/-!
What is output where. While the console is the active target everything goes to it, and while another one
is nothing does; away from the network each step of a run keeps it so (`Machine.Offline.routes_step`).
-/
namespace TapeLang

namespace World

variable {w v : World}

/-- What is output where: to the console alone while it is the active target, and to everything but
the console while it is not. No listener is open. -/
structure Routes (w : World) : Prop where
  unopened : w.listener = none
  console : w.target = .std → w.endpoints = [.console]
  elsewhere : w.target ≠ .std → .console ∉ w.endpoints

theorem Routes.of_same (routes : w.Routes) (listener : v.listener = w.listener)
    (target : v.target = w.target) (endpoints : v.endpoints = w.endpoints) : v.Routes := by
  obtain ⟨unopened, console, elsewhere⟩ := routes
  refine ⟨listener.trans unopened, ?_, ?_⟩
  · rw [target, endpoints]
    exact console
  · rw [target, endpoints]
    exact elsewhere

theorem drain_unopened (unopened : w.listener = none) : w.drain = w := by
  simp only [drain, unopened]

/-- Reading changes neither the session nor where anything goes. -/
theorem read_routes (unopened : w.listener = none) : w.read.1.session = w.session ∧
    w.read.1.console.forwarded = w.console.forwarded ∧ w.read.1.listener = w.listener ∧
      w.read.1.target = w.target ∧ w.read.1.endpoints = w.endpoints := by
  rw [read, drain_unopened unopened]
  unfold readLive
  split
  · exact ⟨rfl, rfl, rfl, rfl, rfl⟩
  · exact ⟨rfl, rfl, rfl, rfl, rfl⟩
  all_goals
    unfold readConsole
    split
    next done =>
      obtain ⟨_, _, same⟩ := ok_of_map_ok done
      obtain ⟨-, rfl⟩ := Prod.mk.inj same
      exact ⟨rfl, rfl, rfl, rfl, rfl⟩
    next => exact ⟨rfl, rfl, rfl, rfl, rfl⟩

/-- Where nothing goes to the console, output leaves the session and the console alone. -/
theorem writeEach_routes {endpoints : List Endpoint} (elsewhere : .console ∉ endpoints) (byte : UInt8) :
    (w.writeEach byte endpoints).1.session = w.session ∧
      (w.writeEach byte endpoints).1.console = w.console ∧
      (w.writeEach byte endpoints).1.listener = w.listener ∧
      (w.writeEach byte endpoints).1.target = w.target ∧
      (w.writeEach byte endpoints).1.endpoints = w.endpoints := by
  induction endpoints generalizing w with
  | nil => exact ⟨rfl, rfl, rfl, rfl, rfl⟩
  | cons endpoint rest ih =>
    have later : .console ∉ rest := fun member => elsewhere (List.mem_cons_of_mem _ member)
    cases endpoint with
    | console => exact absurd List.mem_cons_self elsewhere
    | file | connection =>
      obtain ⟨session, console, listener, target, endpoints⟩ := @ih _ later
      exact ⟨session, console, listener, target, endpoints⟩

/-- A switch to another target than the network keeps what is output where. -/
theorem Routes.switch (routes : w.Routes) (away : w.target ≠ .http) {name : String}
    (other : name ≠ Source.Target.http.name) : (w.switch name).1.Routes := by
  have opened : w.openFile.1.Routes := by
    unfold openFile
    split
    · exact ⟨routes.unopened, by simp, by simp⟩
    · exact routes
    · exact routes
  simp only [World.switch, enter, away, ↓reduceIte]
  split
  · exact ⟨routes.unopened, fun _ => rfl, by simp [setConsole]⟩
  · exact opened
  next found => exact absurd (Source.Target.ofName?_eq_some_iff.mp found) other
  · exact ⟨routes.unopened, by simp [setTcp], by simp [setTcp]⟩
  · exact routes

theorem Routes.writeEach (routes : w.Routes) (byte : UInt8) (endpoints : List Endpoint) :
    (w.writeEach byte endpoints).1.Routes := by
  induction endpoints generalizing w with
  | nil => exact routes
  | cons endpoint rest ih =>
    unfold World.writeEach
    split
    next v written =>
      refine ih ?_
      cases endpoint with
      | console =>
        obtain ⟨console, session, rfl⟩ := writeConsole_world written
        exact routes.of_same rfl rfl rfl
      | file | connection =>
        obtain rfl := Except.ok.inj written
        exact routes.of_same rfl rfl rfl
    next => exact routes

end World

namespace Machine

variable {m : Machine}

/-- A step away from the network keeps what is output where. -/
theorem Offline.routes_step (offline : m.Offline) (routes : m.world.Routes) : m.step.world.Routes := by
  rcases step_world with ⟨session, same⟩ | ⟨head, action, next, -, rest, same⟩
  · rw [same]
    exact routes.of_same rfl rfl rfl
  · rw [same]
    rcases perform_world offline.away head action next with kept | ⟨-, sent⟩ | ⟨-, read⟩ |
      ⟨name, rfl, switched⟩
    · rwa [kept]
    · rw [sent, World.broadcast, World.drain_unopened routes.unopened]
      exact routes.writeEach m.tape.current m.world.endpoints
    · obtain ⟨-, -, listener, target, endpoints⟩ := World.read_routes routes.unopened
      rw [read]
      exact routes.of_same listener target endpoints
    · rw [switched]
      exact routes.switch offline.away (bne_iff_ne.mp (offline.allowed rest))

end Machine
end TapeLang

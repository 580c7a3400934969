import Mathlib.Data.List.Basic
import TapeLang.Proofs.Delivery.Effects
import TapeLang.Proofs.Framing
import TapeLang.Proofs.Offline

/-!
Clients that come one at a time. All connections but the last have their responses, and the last waits
at the open listener or has its response too (`Framed`). The responses of a stay are then the segments
of what was output during it, and what is being written is the segment that no zero has ended yet.
Each operation of a world keeps that, with the value it outputs if it outputs one.
-/
namespace TapeLang.Framing

open Http (Connection Traffic)
open Delivery

/-! ## Segments -/

theorem segments_cons (first : UInt8) (rest : List UInt8) :
    segments (first :: rest) =
      if first = 0 then [] :: segments rest else (segments rest).modifyHead (first :: ·) := by
  unfold segments List.splitOn
  rw [List.splitOnP_cons_eq_if_modifyHead]
  simp

theorem segments_ne_nil (values : List UInt8) : segments values ≠ [] :=
  List.splitOnP_ne_nil _ values

/-- A zero ends a segment. -/
theorem segments_append_zero (values : List UInt8) :
    segments (values ++ [0]) = segments values ++ [[]] :=
  List.splitOnP_append_cons values [] rfl

/-- Another value is added to the last segment. -/
theorem segments_append {values last : List UInt8} {complete : List (List UInt8)} {value : UInt8}
    (other : value ≠ 0) (split : complete ++ [last] = segments values) :
    complete ++ [last ++ [value]] = segments (values ++ [value]) := by
  induction values generalizing complete last with
  | nil =>
    have single : complete ++ [last] = [] ++ [[]] := split
    obtain ⟨rfl, same⟩ := List.append_inj' single rfl
    obtain rfl := List.singleton_inj.mp same
    show [[value]] = segments [value]
    rw [segments_cons, if_neg other]
    rfl
  | cons first rest ih =>
    obtain ⟨complete', last', later⟩ :=
      (List.eq_nil_or_concat (segments rest)).resolve_left (segments_ne_nil rest)
    rw [List.concat_eq_append] at later
    rw [List.cons_append, segments_cons, ← ih later.symm]
    rw [segments_cons, later] at split
    by_cases zero : first = 0
    · rw [if_pos zero] at split ⊢
      have split : complete ++ [last] = ([] :: complete') ++ [last'] := split
      obtain ⟨rfl, same⟩ := List.append_inj' split rfl
      obtain rfl := List.singleton_inj.mp same
      rfl
    · rw [if_neg zero] at split ⊢
      cases complete' with
      | nil =>
        have split : complete ++ [last] = [] ++ [first :: last'] := split
        obtain ⟨rfl, same⟩ := List.append_inj' split rfl
        obtain rfl := List.singleton_inj.mp same
        rfl
      | cons head tail =>
        have split : complete ++ [last] = ((first :: head) :: tail) ++ [last'] := split
        obtain ⟨rfl, same⟩ := List.append_inj' split rfl
        obtain rfl := List.singleton_inj.mp same
        rfl

/-- No segment holds a zero. -/
theorem zero_not_mem_segment {values segment : List UInt8} (member : segment ∈ segments values) :
    (0 : UInt8) ∉ segment := by
  induction values generalizing segment with
  | nil =>
    obtain rfl := List.mem_singleton.mp member
    exact List.not_mem_nil
  | cons first rest ih =>
    rw [segments_cons] at member
    by_cases zero : first = 0
    · rw [if_pos zero] at member
      rcases List.mem_cons.mp member with rfl | later
      · exact List.not_mem_nil
      · exact ih later
    · rw [if_neg zero] at member
      cases split : segments rest with
      | nil => exact absurd split (segments_ne_nil rest)
      | cons head tail =>
        rw [split] at member ih
        rcases List.mem_cons.mp member with rfl | later
        · intro held
          rcases List.mem_cons.mp held with same | held
          · exact zero same.symm
          · exact ih List.mem_cons_self held
        · exact ih (List.mem_cons_of_mem head later)

theorem spoken_append (listener other : Nat) (value : UInt8) (values : List (Nat × UInt8)) :
    spoken listener (values ++ [(other, value)]) =
      if other = listener then spoken listener values ++ [value] else spoken listener values := by
  unfold spoken
  rw [List.filterMap_append]
  by_cases own : other = listener <;> simp [own]

/-! ## Connections -/

/-- What was written to the clients of a listener, in order. -/
def outputs (listener : Nat) (connections : List Connection) : List (List UInt8) :=
  (connections.filter (·.listener = listener)).map (·.output.toList)

/-- What was written to the client that waits; nothing where none does. -/
def begun (current : Option Connection) : List UInt8 := (current.map (·.output.toList)).getD []

/-- A client that has its response. -/
def Served (c : Connection) : Prop :=
  c.stage = .gone ∧ ∃ type, c.reply = some (.answered type c.output.toList)

/-- All clients but the last have their responses, which are the segments of what was output. -/
structure Framed (w : World) (past : List Connection) (current : Option Connection)
    (values : List (Nat × UInt8)) : Prop where
  tidy : Tidy w
  unopened : w.target = .http → w.listener = none → w.endpoints = []
  clients : w.traffic.connections.toList = past ++ current.toList
  served : ∀ c ∈ past, Served c
  waits : ∀ c, current = some c → c.stage = .waiting ∧ c.reply = none ∧ w.listener = some c.listener
  /-- nothing is output before somebody has connected -/
  heard : ∀ listener value, (listener, value) ∈ values →
    ∃ c ∈ past ++ current.toList, c.listener = listener
  opened : ∀ listener, w.listener = some listener →
    outputs listener past ++ [begun current] = segments (spoken listener values)
  shut : ∀ listener, w.listener ≠ some listener →
    outputs listener past = segments (spoken listener values) ∨
    outputs listener past ++ [[]] = segments (spoken listener values)

variable {w v : World} {t u : Traffic} {past : List Connection} {current : Option Connection}
  {values : List (Nat × UInt8)} {c d : Connection} {listener id : Nat} {value : UInt8}
  {r : Nat → Connection → Connection → Prop}

theorem outputs_append (listener : Nat) (past : List Connection) (c : Connection) :
    outputs listener (past ++ [c]) =
      if c.listener = listener then outputs listener past ++ [c.output.toList]
      else outputs listener past := by
  unfold outputs
  rw [List.filter_append, List.map_append]
  by_cases own : c.listener = listener <;> simp [own]

theorem getElem?_clients (clients : t.connections.toList = past ++ current.toList) (id : Nat) :
    t.connections[id]? = (past ++ current.toList)[id]? := by
  rw [← clients, Array.getElem?_toList]

/-- Where nothing happens to the clients that have their responses, they are still there, and so is
the one that waits. -/
theorem clients_of_becomes (becomes : Becomes t u r)
    (clients : t.connections.toList = past ++ current.toList)
    (fixed : ∀ (id : Nat) c d, t.connections[id]? = some c → c ∈ past → r id c d → d = c) :
    ∃ current', u.connections.toList = past ++ current'.toList ∧
      (current = none → current' = none) ∧
      ∀ c, current = some c → ∃ d, current' = some d ∧ r past.length c d := by
  have earlier (id : Nat) (within : id < past.length) : u.connections[id]? = past[id]? := by
    have known : t.connections[id]? = some past[id] := by
      rw [getElem?_clients clients, List.getElem?_append_left within, List.getElem?_eq_getElem within]
    obtain ⟨d, known', related⟩ := becomes.known id _ known
    rw [known', fixed id _ d known (List.getElem_mem within) related, List.getElem?_eq_getElem within]
  have size : t.connections.size = past.length + current.toList.length := by
    rw [← Array.length_toList, clients, List.length_append]
  cases current with
  | none =>
    refine ⟨none, ?_, fun _ => rfl, by simp⟩
    rw [Option.toList_none, List.append_nil]
    apply List.ext_getElem?
    intro id
    rw [Array.getElem?_toList]
    by_cases within : id < past.length
    · exact earlier id within
    · rw [List.getElem?_eq_none (Nat.le_of_not_lt within)]
      apply Array.getElem?_eq_none
      rw [becomes.size, size]
      simpa using within
  | some c =>
    have known : t.connections[past.length]? = some c := by
      rw [getElem?_clients clients]
      simp
    obtain ⟨d, known', related⟩ := becomes.known _ c known
    refine ⟨some d, ?_, by simp, ?_⟩
    · apply List.ext_getElem?
      intro id
      rw [Array.getElem?_toList]
      by_cases within : id < past.length
      · rw [earlier id within, List.getElem?_append_left within]
      · by_cases last : id = past.length
        · subst last
          simpa using known'
        · have beyond : past.length + 1 ≤ id := by omega
          rw [List.getElem?_eq_none (by simpa using beyond)]
          apply Array.getElem?_eq_none
          rw [becomes.size, size]
          simpa using beyond
    · intro c' same
      obtain rfl := Option.some.inj same
      exact ⟨d, rfl, related⟩

theorem getElem?_current (clients : t.connections.toList = past ++ [c]) :
    t.connections[past.length]? = some c := by
  rw [← Array.getElem?_toList, clients]
  simp

/-- Who is attached waits for a response, so it is the last client. -/
theorem Framed.attached (framed : Framed w past current values)
    (attached : .connection id ∈ w.endpoints) : id = past.length ∧ current ≠ none := by
  obtain ⟨c, known, waiting, -⟩ := framed.tidy.pending (.inr attached)
  rw [getElem?_clients framed.clients] at known
  by_cases within : id < past.length
  · rw [List.getElem?_append_left within] at known
    have gone := (framed.served c (List.mem_of_getElem? known)).1
    simp [waiting] at gone
  · rw [List.getElem?_append_right (Nat.le_of_not_lt within)] at known
    cases current with
    | none => simp at known
    | some last =>
      have first : id - past.length < 1 := by
        obtain ⟨less, -⟩ := List.getElem?_eq_some_iff.mp known
        exact less
      exact ⟨by omega, by simp⟩

/-- Nobody who has a response is attached. -/
theorem Framed.unattached (framed : Framed w past current values) (member : c ∈ past)
    (known : w.traffic.connections[id]? = some c) : .connection id ∉ w.endpoints := by
  intro attached
  obtain ⟨d, known', waiting, -⟩ := framed.tidy.pending (.inr attached)
  obtain rfl := Option.some.inj (known.symm.trans known')
  have gone := (framed.served c member).1
  simp [waiting] at gone

/-- What keeps the clients that have their responses, and what was written to the one that waits. -/
theorem Framed.keeps (framed : Framed w past current values) (tidy : Tidy v)
    (listener : v.listener = w.listener)
    (unopened : v.target = .http → v.listener = none → v.endpoints = [])
    (becomes : Becomes w.traffic v.traffic r)
    (fixed : ∀ (id : Nat) c d, w.traffic.connections[id]? = some c → c ∈ past → r id c d → d = c)
    (kept : ∀ id c d, r id c d → d.listener = c.listener ∧ d.output = c.output ∧
      d.stage = c.stage ∧ d.reply = c.reply) :
    ∃ current', Framed v past current' values := by
  obtain ⟨current', clients, nobody, somebody⟩ := clients_of_becomes becomes framed.clients fixed
  have same : begun current' = begun current := by
    cases current with
    | none => rw [nobody rfl]
    | some c =>
      obtain ⟨d, rfl, related⟩ := somebody c rfl
      obtain ⟨-, output, -⟩ := kept _ c d related
      simp only [begun, Option.map_some, Option.getD_some, output]
  refine ⟨current', tidy, unopened, clients, framed.served, ?_, ?_, ?_, ?_⟩
  · rintro d rfl
    cases current with
    | none => simp at nobody
    | some c =>
      obtain ⟨d', same, related⟩ := somebody c rfl
      obtain rfl := Option.some.inj same
      obtain ⟨own, -, stage, reply⟩ := kept _ c d related
      rw [own, stage, reply, listener]
      exact framed.waits c rfl
  · intro other value member
    obtain ⟨c, client, own⟩ := framed.heard other value member
    rcases List.mem_append.mp client with earlier | last
    · exact ⟨c, List.mem_append_left _ earlier, own⟩
    · obtain ⟨d, rfl, related⟩ := somebody c (Option.mem_toList.mp last)
      exact ⟨d, by simp, (kept _ c d related).1.trans own⟩
  · intro other opened
    rw [same]
    exact framed.opened other (listener ▸ opened)
  · intro other away
    exact framed.shut other (listener ▸ away)

/-! ## Operations -/

/-- The console and the debug session tell nothing of the clients. -/
theorem Framed.of_mute (framed : Framed w past current values) (same : v.mute = w.mute) :
    Framed v past current values := by
  rw [World.eq_of_mute same]
  exact ⟨framed.tidy.of_mute rfl, framed.unopened, framed.clients, framed.served, framed.waits,
    framed.heard, framed.opened, framed.shut⟩

/-- A client connects where nobody waits. -/
theorem Framed.connect (framed : Framed w past none values) (body : List UInt8)
    (opened : w.listener = some listener) :
    ∃ v, w.connect body = .ok v ∧ Framed v past
      (some { listener, input := body, stage := .waiting }) values := by
  obtain ⟨v, connected, tidy, kept, endpoints, -, connections⟩ := framed.tidy.connect opened body
  have all : w.traffic.connections.toList = past := by
    rw [framed.clients, Option.toList_none, List.append_nil]
  have size : w.traffic.connections.size = past.length := by rw [← Array.length_toList, all]
  have still : v.listener = some listener := kept.trans opened
  refine ⟨v, connected, tidy, by simp [still], ?_, framed.served, ?_, ?_, ?_, ?_⟩
  · apply List.ext_getElem?
    intro id
    rw [Array.getElem?_toList, connections id, size]
    by_cases last : past.length = id
    · subst last
      simp
    · rw [if_neg last, getElem?_clients framed.clients, Option.toList_none, List.append_nil]
      by_cases within : id < past.length
      · rw [List.getElem?_append_left within]
      · rw [List.getElem?_eq_none (by omega), List.getElem?_eq_none]
        simp
        omega
  · rintro c same
    obtain rfl := Option.some.inj same
    exact ⟨rfl, rfl, still⟩
  · intro other value member
    obtain ⟨c, client, own⟩ := framed.heard other value member
    rw [Option.toList_none, List.append_nil] at client
    exact ⟨c, List.mem_append_left _ client, own⟩
  · intro other now
    exact framed.opened other (kept ▸ now)
  · intro other away
    exact framed.shut other (kept ▸ away)

theorem Framed.awaitConnection (framed : Framed w past current values) :
    ∃ v, w.awaitConnection = .ok (v, !v.endpoints.isEmpty) ∧
      v.endpoints = w.drain.endpoints ∧
      v = { w with traffic := v.traffic, endpoints := v.endpoints } ∧
      v.traffic.connections = w.traffic.connections ∧ Framed v past current values := by
  obtain ⟨v, awaited, tidy, takes, same, elsewhere⟩ := framed.tidy.awaitConnection
  have target : v.target = w.target := by rw [elsewhere]
  refine ⟨v, awaited, takes.endpoints.trans (drain_takes w).endpoints.symm, elsewhere, same, tidy,
    ?_, by rw [same]; exact framed.clients, framed.served, ?_, framed.heard, ?_, ?_⟩
  · intro network
    exact takes.nobody (framed.unopened (target ▸ network))
  · rw [takes.listener]
    exact framed.waits
  · rw [takes.listener]
    exact framed.opened
  · rw [takes.listener]
    exact framed.shut

theorem Framed.read (framed : Framed w past current values) :
    ∃ current', Framed w.read.1 past current' values := by
  obtain ⟨tidy, takes, becomes⟩ := framed.tidy.read
  have target := (World.keeps_read w).target
  refine framed.keeps tidy takes.listener ?_ becomes ?_ ?_
  · intro network
    exact takes.nobody (framed.unopened (target ▸ network))
  · rintro id c d known member related
    apply related.2
    apply tidy.unattached_of_gone becomes known (framed.served c member).1
    rintro d ⟨⟨input, rfl⟩, -⟩
    rfl
  · rintro id c d ⟨⟨input, rfl⟩, -⟩
    exact ⟨rfl, rfl, rfl, rfl⟩

/-- A byte that goes elsewhere than to connections. -/
theorem Framed.broadcast_unopened (framed : Framed w past current values)
    (unopened : w.listener = none) (byte : UInt8) :
    ∃ current', Framed (w.broadcast byte).1 past current' values := by
  obtain ⟨tidy, takes, becomes⟩ := framed.tidy.broadcast byte
  have target := (World.keeps_broadcast w byte).target
  have same : Becomes w.traffic (w.broadcast byte).1.traffic fun _ c d => d = c :=
    becomes.mono fun id _ _ _ related =>
      related.2 (tidy.unattached (takes.listener.trans unopened))
  refine framed.keeps tidy takes.listener ?_ same (fun _ _ _ _ _ same => same) ?_
  · intro network
    exact takes.nobody (framed.unopened (target ▸ network))
  · rintro _ c _ rfl
    exact ⟨rfl, rfl, rfl, rfl⟩

/-- Where something is attached while a listener is open, it is the client that waits. -/
theorem Framed.somebody (framed : Framed w past current values)
    (opened : w.listener = some listener) (attached : w.endpoints ≠ []) :
    ∃ c, current = some c ∧ c.listener = listener ∧ .connection past.length ∈ w.endpoints := by
  obtain ⟨endpoint, member⟩ := List.exists_mem_of_ne_nil _ attached
  obtain ⟨id, rfl⟩ := framed.tidy.routed (by simp [opened]) endpoint member
  obtain ⟨rfl, some⟩ := framed.attached member
  obtain ⟨c, rfl⟩ := Option.ne_none_iff_exists'.mp some
  obtain ⟨-, -, own⟩ := framed.waits c rfl
  exact ⟨c, rfl, Option.some.inj (own.symm.trans opened), member⟩

/-- A value that is not zero is written to the client that waits. -/
theorem Framed.broadcast (framed : Framed w past current values)
    (opened : w.listener = some listener) (attached : w.endpoints ≠ []) (other : value ≠ 0) :
    ∃ current', Framed (w.broadcast value).1 past current' (values ++ [(listener, value)]) := by
  obtain ⟨c, rfl, own, member⟩ := framed.somebody opened attached
  obtain ⟨tidy, takes, becomes⟩ := framed.tidy.broadcast value
  have still : (w.broadcast value).1.listener = some listener := takes.listener.trans opened
  have attached' := takes.mem_endpoints (.inr member)
  obtain ⟨current', clients, -, somebody⟩ := clients_of_becomes becomes framed.clients (by
    intro id c d known member related
    apply related.2
    apply tidy.unattached_of_gone becomes known (framed.served c member).1
    intro d related
    by_cases attached : .connection id ∈ (w.broadcast value).1.endpoints
    · rw [related.1 attached]
      rfl
    · rw [related.2 attached])
  obtain ⟨d, rfl, related⟩ := somebody c rfl
  obtain rfl := related.1 attached'
  obtain ⟨waiting, unanswered, -⟩ := framed.waits c rfl
  refine ⟨some (appended value c), tidy, by simp [still], clients, framed.served, ?_, ?_, ?_, ?_⟩
  · rintro d same
    obtain rfl := Option.some.inj same
    exact ⟨waiting, unanswered, still.trans (congrArg some own.symm)⟩
  · intro heard value' member
    rcases List.mem_append.mp member with earlier | newest
    · obtain ⟨client, place, same⟩ := framed.heard heard value' earlier
      rcases List.mem_append.mp place with answered | last
      · exact ⟨client, List.mem_append_left _ answered, same⟩
      · obtain rfl := Option.some.inj (Option.mem_toList.mp last)
        exact ⟨appended value c, by simp, same⟩
    · obtain ⟨rfl, rfl⟩ := Prod.mk.inj (List.mem_singleton.mp newest)
      exact ⟨appended value' c, by simp, own⟩
  · intro now opened'
    obtain rfl := Option.some.inj (still.symm.trans opened')
    have before := framed.opened listener opened
    have after := segments_append other before
    rw [spoken_append, if_pos rfl, ← after]
    simp [begun, appended]
  · intro away apart
    have differs : listener ≠ away := by
      rintro rfl
      exact apart still
    rw [spoken_append, if_neg differs]
    exact framed.shut away (by rw [opened]; simpa using differs)

/-- A zero completes the response of the client that waits. -/
theorem Framed.finishCycle (framed : Framed w past current values)
    (opened : w.listener = some listener) (attached : w.endpoints ≠ []) :
    ∃ v c type, w.finishCycle = .ok v ∧
      v = { w with traffic := v.traffic, endpoints := v.endpoints } ∧ current = some c ∧
      Framed v (past ++ [answered type c]) none (values ++ [(listener, 0)]) := by
  obtain ⟨c, rfl, own, member⟩ := framed.somebody opened attached
  obtain ⟨v, cycled, tidy, kept, -, -, elsewhere, becomes⟩ := framed.tidy.finishCycle
  have still : v.listener = some listener := kept.trans opened
  obtain ⟨current', clients, -, somebody⟩ := clients_of_becomes becomes framed.clients
    fun id c d known member related => related.2 (.inr (framed.served c member).1)
  obtain ⟨d, rfl, ends, -⟩ := somebody c rfl
  obtain ⟨waiting, -, -⟩ := framed.waits c rfl
  obtain ⟨type, rfl⟩ := ends member waiting
  refine ⟨v, c, type, cycled, elsewhere, rfl, tidy, by simp [still], ?_, ?_, by simp, ?_, ?_, ?_⟩
  · rw [clients, Option.toList_none, List.append_nil]
    rfl
  · intro client member
    rcases List.mem_append.mp member with earlier | last
    · exact framed.served client earlier
    · obtain rfl := List.mem_singleton.mp last
      exact ⟨rfl, type, rfl⟩
  · intro heard value member
    rcases List.mem_append.mp member with earlier | newest
    · obtain ⟨client, place, same⟩ := framed.heard heard value earlier
      rcases List.mem_append.mp place with answered | last
      · exact ⟨client, by simp [answered], same⟩
      · obtain rfl := Option.some.inj (Option.mem_toList.mp last)
        exact ⟨answered type c, by simp, same⟩
    · obtain ⟨rfl, rfl⟩ := Prod.mk.inj (List.mem_singleton.mp newest)
      exact ⟨answered type c, by simp, own⟩
  · intro now opened'
    obtain rfl := Option.some.inj (still.symm.trans opened')
    have before := framed.opened listener opened
    rw [spoken_append, if_pos rfl, segments_append_zero, ← before, outputs_append,
      if_pos (show (answered type c).listener = listener from own)]
    rfl
  · intro away apart
    have differs : listener ≠ away := by
      rintro rfl
      exact apart still
    rw [spoken_append, if_neg differs, outputs_append,
      if_neg (show ¬ (answered type c).listener = away from fun same => differs (own.symm.trans same))]
    exact framed.shut away (by rw [opened]; simpa using differs)

/-- Every client belongs to a listener that is there. -/
theorem Framed.hosted (framed : Framed w past current values) (member : c ∈ past ++ current.toList) :
    c.listener ≠ w.traffic.listeners.size := by
  obtain ⟨id, known⟩ := List.mem_iff_getElem?.mp member
  rw [← getElem?_clients framed.clients] at known
  have registered : Interleaving.verdict c = some true := by
    rcases List.mem_append.mp member with earlier | last
    · obtain ⟨gone, type, reply⟩ := framed.served c earlier
      rw [Interleaving.verdict, gone, reply]
      rfl
    · exact verdict_waiting (framed.waits c (Option.mem_toList.mp last)).1
  intro newest
  exact framed.tidy.hosted known registered (Array.getElem?_eq_none (Nat.le_of_eq newest.symm))

/-- When everybody is answered, so is the client that waits. -/
theorem Framed.everybody (framed : Framed w past current values)
    (becomes : Becomes w.traffic v.traffic (Answers fun _ => True)) :
    current = none ∧ v.traffic.connections.toList = past ∨
    ∃ c type, current = some c ∧ v.traffic.connections.toList = past ++ [answered type c] := by
  obtain ⟨current', clients, nobody, somebody⟩ := clients_of_becomes becomes framed.clients
    fun id c d known member related => related.2 (.inr (framed.served c member).1)
  cases current with
  | none =>
    obtain rfl := nobody rfl
    rw [Option.toList_none, List.append_nil] at clients
    exact .inl ⟨rfl, clients⟩
  | some c =>
    obtain ⟨d, rfl, ends, -⟩ := somebody c rfl
    obtain ⟨type, rfl⟩ := ends trivial (framed.waits c rfl).1
    exact .inr ⟨c, type, rfl, clients⟩

/-- A listener that nobody belongs to has heard nothing. -/
theorem Framed.unheard (framed : Framed w past current values)
    (nobody : ∀ c ∈ past ++ current.toList, c.listener ≠ listener) : spoken listener values = [] := by
  unfold spoken
  rw [List.filterMap_eq_nil_iff]
  rintro ⟨other, value⟩ member
  obtain ⟨c, client, own⟩ := framed.heard other value member
  exact if_neg fun same => nobody c client (own.trans same)

theorem outputs_eq_nil (nobody : ∀ c ∈ past, c.listener ≠ listener) : outputs listener past = [] := by
  unfold outputs
  rw [List.map_eq_nil_iff, List.filter_eq_nil_iff]
  intro c member
  simpa using nobody c member

/-- Where a listener was open, its stay is over with the segment that was being written. -/
theorem Framed.ended (framed : Framed w past current values) (opened : w.listener = some listener) :
    current = none ∧ outputs listener past ++ [[]] = segments (spoken listener values) ∨
    ∃ c, current = some c ∧ c.listener = listener ∧
      outputs listener past ++ [c.output.toList] = segments (spoken listener values) := by
  have before := framed.opened listener opened
  cases current with
  | none => exact .inl ⟨rfl, before⟩
  | some c =>
    have own := (framed.waits c rfl).2.2
    exact .inr ⟨c, rfl, Option.some.inj (own.symm.trans opened), before⟩

/-- When a listener closes, the client that waits gets the segment that no zero has ended. -/
theorem Framed.leave (framed : Framed w past current values) (tidy : Tidy v)
    (newest : ∀ listener, v.listener = some listener → listener = w.traffic.listeners.size)
    (unopened : v.target = .http → v.listener = none → v.endpoints = [])
    (becomes : Becomes w.traffic v.traffic (Answers fun _ => True)) :
    ∃ past', Framed v past' none values := by
  have fresh (listener : Nat) (opened : v.listener = some listener) (c : Connection)
      (member : c ∈ past ++ current.toList) : c.listener ≠ listener := by
    rw [newest listener opened]
    exact framed.hosted member
  rcases framed.everybody becomes with ⟨rfl, clients⟩ | ⟨c, type, rfl, clients⟩
  · refine ⟨past, tidy, unopened, by simp [clients], framed.served, by simp, framed.heard, ?_, ?_⟩
    · intro listener opened
      rw [framed.unheard (fresh listener opened), outputs_eq_nil fun c member =>
        fresh listener opened c (List.mem_append_left _ member)]
      rfl
    · intro listener apart
      by_cases opened : w.listener = some listener
      · obtain ⟨-, ended⟩ | ⟨_, somebody, -⟩ := framed.ended opened
        · exact .inr ended
        · simp at somebody
      · exact framed.shut listener opened
  · have own := (framed.waits c rfl).2.2
    refine ⟨past ++ [answered type c], tidy, unopened, by simp [clients], ?_, by simp, ?_, ?_, ?_⟩
    · intro client member
      rcases List.mem_append.mp member with earlier | last
      · exact framed.served client earlier
      · obtain rfl := List.mem_singleton.mp last
        exact ⟨rfl, type, rfl⟩
    · intro heard value member
      obtain ⟨client, place, same⟩ := framed.heard heard value member
      rcases List.mem_append.mp place with earlier | last
      · exact ⟨client, by simp [earlier], same⟩
      · obtain rfl := Option.some.inj (Option.mem_toList.mp last)
        exact ⟨answered type c, by simp, same⟩
    · intro listener opened
      rw [framed.unheard (fresh listener opened), outputs_append,
        if_neg (show ¬ (answered type c).listener = listener from fresh listener opened c (by simp)),
        outputs_eq_nil fun c member => fresh listener opened c (List.mem_append_left _ member)]
      rfl
    · intro listener apart
      rw [outputs_append]
      by_cases opened : w.listener = some listener
      · obtain ⟨nobody, -⟩ | ⟨c', somebody, same, ended⟩ := framed.ended opened
        · simp at nobody
        · obtain rfl := Option.some.inj somebody
          rw [if_pos (show (answered type c).listener = listener from same)]
          exact .inl ended
      · rw [if_neg (show ¬ (answered type c).listener = listener from fun same =>
          opened (own.trans (congrArg some same)))]
        exact framed.shut listener opened

theorem Framed.switch (framed : Framed w past current values) (name : String) :
    ∃ past', Framed (w.switch name).1 past' none values := by
  obtain ⟨tidy, newest, unattached, becomes⟩ := framed.tidy.switch name
  exact framed.leave tidy newest (fun network _ => unattached network) becomes

/-- Nothing is left of a stay when a world is closed. -/
theorem Framed.close (framed : Framed w past current values) :
    w.close.1.listener = none ∧ ∃ past', Framed w.close.1 past' none values := by
  obtain ⟨-, tidy, unopened, endpoints, becomes⟩ := framed.tidy.close
  exact ⟨unopened, framed.leave tidy (by simp [unopened]) (fun _ _ => endpoints) becomes⟩

/-! ## What the clients of a listener get -/

theorem Framed.bodies (framed : Framed w past current values) (listener : Nat) :
    bodies w listener = outputs listener past := by
  have mine (c : Connection) (served : Served c) :
      ((c.reply.bind Http.Reply.response?).map (·.body)) = some c.output.toList := by
    obtain ⟨-, type, reply⟩ := served
    rw [reply]
    rfl
  have last : (current.toList.filter (·.listener = listener)).filterMap
      (fun c => (c.reply.bind Http.Reply.response?).map (·.body)) = [] := by
    rw [List.filterMap_eq_nil_iff]
    intro c member
    have somebody := Option.mem_toList.mp (List.mem_filter.mp member).1
    rw [(framed.waits c somebody).2.1]
    rfl
  unfold Framing.bodies outputs
  rw [framed.clients, List.filter_append, List.filterMap_append, last, List.append_nil,
    ← List.filterMap_eq_map]
  apply List.filterMap_congr
  intro c member
  exact mine c (framed.served c (List.mem_filter.mp member).1)

theorem Framed.pending (framed : Framed w past current values) (listener : Nat) :
    pending w listener =
      (current.toList.filter (·.listener = listener)).map (·.output.toList) := by
  have answered : (past.filter (·.listener = listener)).filter (·.reply.isNone) = [] := by
    rw [List.filter_eq_nil_iff]
    intro c member
    obtain ⟨-, type, reply⟩ := framed.served c (List.mem_filter.mp member).1
    simp [reply]
  have waits : (current.toList.filter (·.listener = listener)).filter (·.reply.isNone) =
      current.toList.filter (·.listener = listener) := by
    rw [List.filter_eq_self]
    intro c member
    have somebody := Option.mem_toList.mp (List.mem_filter.mp member).1
    rw [(framed.waits c somebody).2.1]
    rfl
  unfold Framing.pending
  rw [framed.clients, List.filter_append, List.filter_append, answered, waits, List.nil_append]

/-- Every stay of a world whose clients come one at a time. -/
theorem Framed.stay (framed : Framed w past current values) (listener : Nat) :
    Stay w listener (spoken listener values) := by
  have bodies := framed.bodies listener
  have pending := framed.pending listener
  refine ⟨?_, ?_, ?_⟩
  · intro opened
    rw [bodies, pending]
    obtain ⟨rfl, ended⟩ | ⟨c, rfl, own, ended⟩ := framed.ended opened
    · exact .inl ⟨rfl, ended⟩
    · exact .inr ⟨c.output.toList, by simp [own], ended⟩
  · intro apart
    rw [bodies, pending]
    refine ⟨?_, framed.shut listener apart⟩
    rw [List.map_eq_nil_iff, List.filter_eq_nil_iff]
    intro c member
    have opened := (framed.waits c (Option.mem_toList.mp member)).2.2
    simpa using fun own => apart (opened.trans (congrArg some own))
  · intro body member
    rw [bodies] at member
    by_cases opened : w.listener = some listener
    · have split := framed.opened listener opened
      exact zero_not_mem_segment (split ▸ List.mem_append_left _ member)
    · rcases framed.shut listener opened with split | split
      · exact zero_not_mem_segment (split ▸ member)
      · exact zero_not_mem_segment (split ▸ List.mem_append_left _ member)

end TapeLang.Framing

import Mathlib.Logic.Basic
import TapeLang.Client.Transport
import TapeLang.Proofs.Json.Refusals
import TapeLang.Proofs.Reporting

/-!
Lines that are no messages. A line makes a message or violates the protocol, except where a number in it
has no integer: a literal of too many digits anywhere, or an infinite number in a field that holds
integers (`malformed_lines`). A violation ends a pause with an error at the statement, and the client's
reader passes over it; the exceptions leave the run without a report, and stop the client's reader.
-/
namespace TapeLang

namespace Debug

open Host (Line)

/-! ## Failing -/

/-- Whether there is no value. -/
def Fails {ε α : Type} (x : Except ε α) : Prop := ∃ e, x = .error e

theorem fails_bind {x : Except ε α} {f : α → Except ε β} :
    Fails (x >>= f) ↔ Fails x ∨ ∃ a, x = .ok a ∧ Fails (f a) := by
  cases x <;> simp [Fails, bind, Except.bind]

theorem fails_map {x : Except ε α} {f : α → β} : Fails (f <$> x) ↔ Fails x := by
  cases x <;> simp [Fails, Functor.map, Except.map]

theorem fails_pure (a : α) : ¬ Fails (pure a : Except ε α) := by simp [Fails, pure, Except.pure]

theorem fails_mapM {f : α → Except ε β} {items : List α} :
    Fails (items.mapM f) ↔ ∃ item ∈ items, Fails (f item) := by
  induction items with
  | nil => simp [fails_pure]
  | cons item rest ih =>
    rw [List.mapM_cons, fails_bind]
    simp only [List.mem_cons, exists_eq_or_imp]
    cases first : f item with
    | error e => simp [Fails]
    | ok value =>
      have none : ¬ Fails (.ok value : Except ε β) := by simp [Fails]
      simp [none, fails_map, ih]

/-! ## Numbers without an integer -/

/-- A number that no integer is near. -/
def Endless : Json → Prop
  | .float x => ∃ negative, Number.exact x = .infinite negative
  | _ => False

/-- A field that holds such a number. -/
def EndlessField (fields : Json.Fields) (name : String) : Prop :=
  ∃ value, fields.get? (.ofString name) = some value ∧ Endless value

theorem fails_toInt : Fails (toInt value) ↔ Endless value := by
  cases value with
  | float x => cases exact : Number.exact x <;> simp [toInt, Endless, Fails, exact]
  | _ => simp [toInt, Endless, Fails]

theorem fails_intField : Fails (intField name fields) ↔ EndlessField fields name := by
  unfold intField EndlessField
  cases fields.get? (.ofString name) with
  | none => simp [Fails]
  | some value => simp [fails_toInt]

/-- A list that holds such a number. -/
def EndlessItems (fields : Json.Fields) (name : String) : Prop :=
  ∃ items, fields.get? (.ofString name) = some (.array items) ∧ ∃ item ∈ items, Endless item

theorem fails_bytesField : Fails (bytesField name fields) ↔ EndlessItems fields name := by
  unfold bytesField EndlessItems
  cases fields.get? (.ofString name) with
  | none => simp [Fails]
  | some value =>
    cases value with
    | array items => simp [fails_mapM, fails_map, fails_toInt]
    | _ => simp [Fails]

/-! ## Messages -/

/-- The fields of a command that asks for an integer where there is none. -/
def EndlessCommand (fields : Json.Fields) : Prop :=
  EndlessField fields "cell" ∨ EndlessField fields "value"

/-- The fields of a server message that asks for an integer where there is none. -/
def EndlessMessage (fields : Json.Fields) : Prop :=
  (textField "type" fields = .ofString "debug-state" ∧
    (EndlessField fields "cursor" ∨ EndlessItems fields "tape")) ∨
  (textField "type" fields = .ofString "exit" ∧ EndlessField fields "code")

theorem fails_ofFields {fields : Json.Fields} :
    Fails (Command.ofFields fields) ↔ EndlessCommand fields := by
  unfold Command.ofFields EndlessCommand
  rw [fails_bind, fails_intField]
  cases cell : intField "cell" fields with
  | error fault => simp [fails_intField.mp ⟨fault, cell⟩]
  | ok cell => simp [fails_map, fails_intField]

/-- What a line should be: a message, or a violation of the protocol. -/
def IsClean {α : Type} (result : Except LineFault α) : Prop :=
  (∃ message, result = .ok message) ∨ ∃ e, result = .error (.protocol e)

theorem isClean_checked {x : Except NumberFault α} {f : α → Except LineFault β} :
    ¬ IsClean (x.mapError .number >>= f) ↔ Fails x ∨ ∃ a, x = .ok a ∧ ¬ IsClean (f a) := by
  cases x <;> simp [Fails, IsClean, Except.mapError, bind, Except.bind]

theorem isClean_ok (message : α) : IsClean (.ok message) := .inl ⟨message, rfl⟩

theorem isClean_pure (message : α) : IsClean (pure message) := .inl ⟨message, rfl⟩

theorem isClean_ofFields {fields : Json.Fields} :
    ¬ IsClean (ServerMessage.ofFields fields) ↔ EndlessMessage fields := by
  have metadata : Text.ofString "metadata" ≠ .ofString "debug-state" := by decide
  have metadata' : Text.ofString "metadata" ≠ .ofString "exit" := by decide
  have state : Text.ofString "debug-state" ≠ .ofString "exit" := by decide
  unfold ServerMessage.ofFields EndlessMessage
  dsimp only
  generalize textField "type" fields = type
  split
  next same => simp [same, isClean_ok, metadata, metadata']
  split
  next same =>
    simp only [isClean_checked, fails_intField, same, state, true_and, false_and, or_false]
    cases cursor : intField "cursor" fields with
    | error fault => simp [fails_intField.mp ⟨fault, cursor⟩]
    | ok cursor => simp [fails_bytesField, isClean_pure]
  split
  next same =>
    simp only [isClean_checked, fails_intField, same, state.symm, isClean_pure, true_and, false_and,
      false_or, not_true, and_false, exists_false, or_false]
  next notState notExit =>
    split
    · simp [isClean_ok, notState, notExit]
    · simp [IsClean, notState, notExit]

/-! ## Lines -/

/-- A line with an integer of too many digits. -/
def Overlong (line : Line) : Prop :=
  ∃ text count, Text.Utf8.decode line = .ok text ∧ Json.read text = .error (.longInteger count)

theorem Overlong.hasLongRun (overlong : Overlong line) :
    ∃ text count, Text.Utf8.decode line = .ok text ∧ Json.HasLongRun count text := by
  obtain ⟨text, count, spelled, refused⟩ := overlong
  exact ⟨text, count, spelled, Json.longInteger_of_read refused⟩

theorem isClean_decodeLine : ¬ IsClean (decodeLine line) ↔ Overlong line := by
  unfold decodeLine Overlong
  cases spelled : Text.Utf8.decode line with
  | error fault => simp [IsClean]
  | ok text =>
    unfold decodeText
    cases read : Json.read text with
    | ok value => cases value <;> simp [IsClean, read]
    | error refusal => cases refusal <;> simp [IsClean, read]

theorem isClean_command :
    IsClean (Command.decode line) ↔
      ¬ (Overlong line ∨ ∃ fields, decodeLine line = .ok fields ∧ EndlessCommand fields) := by
  rw [← not_iff_not, not_not, ← isClean_decodeLine]
  unfold Command.decode
  cases decodeLine line with
  | error fault => simp [IsClean]
  | ok fields =>
    simp only [isClean_ok, not_true, false_or, Except.ok.injEq, exists_eq_left', ← fails_ofFields]
    cases Command.ofFields fields <;> simp [IsClean, Fails, Except.mapError]

theorem isClean_message :
    IsClean (ServerMessage.decode line) ↔
      ¬ (Overlong line ∨ ∃ fields, decodeLine line = .ok fields ∧ EndlessMessage fields) := by
  rw [← not_iff_not, not_not, ← isClean_decodeLine]
  unfold ServerMessage.decode
  cases decodeLine line with
  | error fault => simp [IsClean]
  | ok fields =>
    simp only [isClean_ok, not_true, false_or, Except.ok.injEq, exists_eq_left', isClean_ofFields]

end Debug

/-! ## A pause -/

namespace Debug

variable {s : Session} {line : Host.Line}

/-- The next line of a client that says anything is this one, and its stream does give it out. -/
structure Session.Brings (s : Session) (line : Host.Line) (blanks rest : List Host.Line) : Prop where
  comes : s.reader.pending = blanks ++ line :: rest
  blank : ∀ before ∈ blanks, Session.isBlankLine before = true
  spoken : Session.isBlankLine line = false
  served : ∀ budget, s.reader.budget = some budget → blanks.length < budget

/-- A stream that serves some more calls serves this one. -/
theorem spend_of_served {budget : Option Nat} (served : ∀ left, budget = some left → count < left) :
    ∃ after, Host.spend budget = some after ∧ ∀ left, after = some left → count ≤ left := by
  cases budget with
  | none => exact ⟨none, rfl, by simp⟩
  | some left =>
    have more := served left rfl
    obtain ⟨left, rfl⟩ := Nat.exists_eq_succ_of_ne_zero (Nat.ne_of_gt (Nat.zero_lt_of_lt more))
    exact ⟨some left, rfl, fun other same => Option.some.inj same ▸ Nat.le_of_lt_succ more⟩

/-- The line is what the session comes to. -/
theorem Session.Brings.readCommandFrom (brings : s.Brings line blanks rest)
    (malformed : Command.decode line = .error fault) (enough : blanks.length < bound) :
    ∃ reader, s.readCommandFrom bound = (.refused fault, { s with reader }) := by
  induction blanks generalizing s bound with
  | nil =>
    obtain ⟨bound, rfl⟩ := Nat.exists_eq_succ_of_ne_zero (Nat.ne_of_gt enough)
    obtain ⟨after, spent, -⟩ := spend_of_served brings.served
    have comes : s.reader.pending = line :: rest := brings.comes
    refine ⟨{ s.reader with pending := rest, budget := after }, ?_⟩
    simp only [Session.readCommandFrom, Host.LineSource.read, spent, comes, brings.spoken, malformed,
      Bool.false_eq_true, ↓reduceIte]
  | cons before blanks ih =>
    obtain ⟨bound, rfl⟩ := Nat.exists_eq_succ_of_ne_zero (Nat.ne_of_gt (Nat.zero_lt_of_lt enough))
    obtain ⟨after, spent, served⟩ := spend_of_served brings.served
    have comes : s.reader.pending = before :: (blanks ++ line :: rest) := brings.comes
    have passed : Session.isBlankLine before = true := brings.blank before (by simp)
    let t : Session := { s with reader :=
      { s.reader with pending := blanks ++ line :: rest, budget := after } }
    have later : t.Brings line blanks rest :=
      ⟨rfl, fun line member => brings.blank line (by simp [member]), brings.spoken, served⟩
    obtain ⟨reader, heard⟩ := ih later (Nat.lt_of_succ_lt_succ enough)
    refine ⟨reader, ?_⟩
    simp only [Session.readCommandFrom, Host.LineSource.read, spent, comes, passed, ↓reduceIte]
    exact heard

end Debug

namespace Machine

variable {m : Machine} {s : Source.Statement} {session : Debug.Session} {line : Host.Line}

/-- A paused machine whose client sends a line that violates the protocol fails at the statement. -/
theorem step_malformed (paused : m.phase = .paused) (first : m.frame.rest.uncons? = some (s, next))
    (client : m.world.session = some session) (brings : session.Brings line blanks rest)
    (malformed : Debug.Command.decode line = .error (.protocol e)) :
    ∃ reader, m.step = { m with
      phase := .halted (.failed (.protocol e) s.head.position)
      world := { m.world with session := some { session with reader } } } := by
  have enough : blanks.length < session.reader.pending.length + 1 := by
    rw [brings.comes, List.length_append]
    omega
  obtain ⟨reader, heard⟩ := brings.readCommandFrom malformed enough
  refine ⟨reader, ?_⟩
  simp only [Machine.step, paused, first, hear, withSession, client, Debug.Session.readCommand, heard]
  rfl

end Machine

/-! ## The client's reader -/

namespace Client.Transport

variable {t : Transport} {line : Host.Line}

/-- What a line leaves in the queue. -/
def message? (line : Host.Line) : Option Debug.ServerMessage :=
  if Debug.Session.isBlankLine line then none else (Debug.ServerMessage.decode line).toOption

/-- A line that reading goes on after. -/
def IsPassed (line : Host.Line) : Prop :=
  Debug.Session.isBlankLine line = true ∨ Debug.IsClean (Debug.ServerMessage.decode line)

theorem readLine_passed (passed : IsPassed line) :
    t.readLine line = { t with queue := t.queue ++ (message? line).toList } := by
  unfold readLine message?
  rcases passed with blank | ⟨message, decoded⟩ | ⟨e, refused⟩
  · simp [blank]
  · split <;> simp [decoded, Except.toOption]
  · split <;> simp [refused, Except.toOption]

/-- The bytes of a line that has no line break inside gather until its own comes. -/
theorem receive_line (active : t.reading = .active) (unbroken : 0xA ∉ line) :
    (line ++ [0xA]).foldl receive t = { t with begun := [] }.readLine (t.begun ++ line) := by
  induction line generalizing t with
  | nil => simp [receive, active]
  | cons byte line ih =>
    obtain ⟨other, unbroken⟩ := not_or.mp (mt List.mem_cons.mpr unbroken)
    have first : t.receive byte = { t with begun := t.begun ++ [byte] } := by
      simp only [receive, active, ↓reduceIte, if_neg (Ne.symm other)]
    rw [List.cons_append, List.foldl_cons, first, ih (by exact active) unbroken]
    simp

/-- All lines that reading goes on after, and the end of the connection behind them. -/
theorem receive_lines {lines : List Host.Line} (active : t.reading = .active) (begun : t.begun = [])
    (unbroken : ∀ line ∈ lines, 0xA ∉ line) (passed : ∀ line ∈ lines, IsPassed line) :
    (lines.flatMap (· ++ [0xA])).foldl receive t =
      { t with queue := t.queue ++ lines.filterMap message? } := by
  induction lines generalizing t with
  | nil => simp
  | cons line lines ih =>
    have read := receive_line (t := t) active (unbroken line (by simp))
    rw [begun, List.nil_append, readLine_passed (passed line (by simp))] at read
    have later := ih (t := { t with begun := [], queue := t.queue ++ (message? line).toList }) active rfl
      (fun line member => unbroken line (by simp [member]))
      fun line member => passed line (by simp [member])
    rw [List.flatMap_cons, List.foldl_append, read, later, begun]
    cases said : message? line <;> simp [said]

end Client.Transport

/-! ## Both ends -/

/-- A line makes a command, or a message, or violates the protocol, exactly if no integer in it has too
many digits and no number that must be an integer is infinite. To a paused program a violation is a
failure at its statement, and the exit code is one where the report goes through; the client's reader
passes over it and comes to the end of the connection. -/
theorem malformed_lines (line : Host.Line) :
    (Debug.IsClean (Debug.Command.decode line) ↔
      ¬ (Debug.Overlong line ∨
        ∃ fields, Debug.decodeLine line = .ok fields ∧ Debug.EndlessCommand fields)) ∧
    (Debug.IsClean (Debug.ServerMessage.decode line) ↔
      ¬ (Debug.Overlong line ∨
        ∃ fields, Debug.decodeLine line = .ok fields ∧ Debug.EndlessMessage fields)) ∧
    (∀ e, Debug.Command.decode line = .error (.protocol e) →
      ∀ (m : Machine) s next session blanks rest path, m.phase = .paused →
        m.frame.rest.uncons? = some (s, next) → m.world.session = some session →
        session.Brings line blanks rest →
        m.step.outcome? = some (.failed (.protocol e) s.head.position) ∧
        (m.world.closeListener.2 = .ok () →
          session.mirrors = true ∨ m.world.console.forwarded = false ∧ ¬ m.world.Unheard →
          (m.step.conclude path (.failed (.protocol e) s.head.position)).2 = .ok 1)) ∧
    ∀ e, Debug.ServerMessage.decode line = .error (.protocol e) → 0xA ∉ line →
      ∀ t : Client.Transport, t.reading = .active → t.begun = [] →
        (line ++ [0xA]).foldl Client.Transport.receive t = t ∧ t.finish.reading = .ended := by
  refine ⟨Debug.isClean_command, Debug.isClean_message, ?_, ?_⟩
  · intro e malformed m s next session blanks rest path paused first client brings
    obtain ⟨reader, stepped⟩ := Machine.step_malformed paused first client brings malformed
    have halted : m.step.outcome? = some (.failed (.protocol e) s.head.position) := by
      simp only [stepped, Machine.outcome?]
    refine ⟨halted, fun closes heard => ?_⟩
    rw [stepped]
    have closes' := (World.closeListener_own m.world m.world.console
      (some { session with reader })).trans closes
    have client' : ({ m.world with session := some { session with reader } } : World).session =
        some { session with reader } := rfl
    refine Machine.conclude_failed closes' path (World.reportError_heard client'
      (heard.imp_right fun ⟨own, heard⟩ => ⟨own, fun unheard => heard ?_⟩) _)
    obtain ⟨_, same, attached, mirrors, broken⟩ := unheard
    obtain rfl := Option.some.inj same
    exact ⟨session, client, attached, mirrors, broken⟩
  · intro e malformed unbroken t active begun
    have passed : Client.Transport.IsPassed line := .inr (.inr ⟨e, malformed⟩)
    have unbroken' : ∀ other ∈ [line], 0xA ∉ other := by simpa using unbroken
    have passed' : ∀ other ∈ [line], Client.Transport.IsPassed other := by simpa using passed
    have read := Client.Transport.receive_lines (t := t) active begun unbroken' passed'
    have nothing : Client.Transport.message? line = none := by
      simp [Client.Transport.message?, malformed, Except.toOption]
    refine ⟨by simpa [nothing] using read, ?_⟩
    simp [Client.Transport.finish, active]

/-- An infinite number of a cell is neither a command nor a violation of the protocol. -/
theorem malformed_lines_infinite : ¬ Debug.IsClean (Debug.Command.decode
    (Text.Utf8.encodeString "\x7b\"operation\":\"move\",\"cell\":1e999\x7d")) := by
  have number : (match Debug.Command.decode
      (Text.Utf8.encodeString "\x7b\"operation\":\"move\",\"cell\":1e999\x7d") with
      | .error (.number _) => true
      | _ => false) = true := by
    decide +kernel
  rintro (⟨command, decoded⟩ | ⟨e, decoded⟩) <;> rw [decoded] at number <;> simp at number

end TapeLang

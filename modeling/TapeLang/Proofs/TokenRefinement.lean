import TapeLang.Proofs.Offline
import TapeLang.Proofs.Stuttering
import TapeLang.Proofs.TokenMachine

/-!
Parsing and then running the tree does what the machine on the tokens does. The machine on the tree is
followed step by step: the counter stands at the tokens of what is left of the current block, and
around them are the brackets of the enclosing loops, innermost first, each paired in the table. A
statement that is looked at costs the counter the marks before it, an action one token or two, and
the end of a body the jump back and the test at the opening bracket. So neither machine outruns the
other, and `parsed_run_iff_token_run` says that both end alike or neither does.
-/
namespace TapeLang

open Source (Action Block Header Statement Token Marks Says Spells bracketPairs)

/-! ## Places in a token list -/

namespace Source

variable {code rest tokens : List Token} {token : Token} {index : Nat}

theorem getElem_of_drop (place : code.drop index = token :: rest) : code[index]? = some token := by
  have first := congrArg (·[0]?) place
  simpa using first

theorem drop_past (place : code.drop index = tokens ++ rest) :
    code.drop (index + tokens.length) = rest := by
  rw [← List.drop_drop, place, List.drop_left]

theorem drop_next (place : code.drop index = token :: rest) : code.drop (index + 1) = rest := by
  have past : code.drop index = [token] ++ rest := place
  exact drop_past past

end Source

open Source (getElem_of_drop drop_past drop_next)

/-- Where the loops around a block stand: each has its brackets around the tokens of its body, and
the tokens after it spell what is left of the block around. `after` is what follows the block. -/
def Enclosed (code : List Token) : Block → List Frame → List Token → Prop
  | _, [], after => after = []
  | block, parent :: outer, after =>
    ∃ start opening middle closing tail rest head next,
      code.drop start = opening :: (middle ++ after) ∧ opening.kind = .loopOpen ∧
      Spells middle block ∧ after = closing :: (tail ++ rest) ∧ closing.kind = .loopClose ∧
      parent.rest = .loop head block next ∧ Spells tail next ∧
      Enclosed code parent.block outer rest

/-- The tokens from an index on spell what is left of the current block, and the loops around follow. -/
def Before (code : List Token) (m : Machine) (index : Nat) : Prop :=
  ∃ here after, code.drop index = here ++ after ∧ Spells here m.frame.rest ∧
    Enclosed code m.frame.block m.outer after

/-- The tokens from an index on are those of the current statement, without its marks, and then
those of what is left of the block. -/
def At (code : List Token) (m : Machine) (index : Nat) : Prop :=
  ∃ piece s tail next after, code.drop index = piece ++ (tail ++ after) ∧ Says piece s ∧
    m.frame.rest = .cons s next ∧ Spells tail next ∧ Enclosed code m.frame.block m.outer after

/-- The counter stands where the machine on the tree stands. -/
def Placed (code : List Token) (m : Machine) (t : TokenMachine) : Prop :=
  match m.phase with
  | .arriving => t.outcome? = none ∧ Before code m t.counter
  | .ready => t.outcome? = none ∧ At code m t.counter
  | .paused => False
  | .halted outcome => t.outcome? = some outcome

/-- The two machines are in step. -/
structure Follows (code : List Token) (m : Machine) (t : TokenMachine) : Prop where
  tape : t.tape = m.tape
  world : t.world = m.world
  inside : m.tape.InBounds
  solo : m.world.session = none
  offline : m.Offline
  placed : Placed code m t

namespace TokenMachine

variable {code rest : List Token} {t : TokenMachine} {token : Token}

/-! ## Steps on the tokens -/

theorem step_token (running : t.outcome? = none) (place : code.drop t.counter = token :: rest) :
    step code t = t.exec code token := by
  simp only [step, running, getElem_of_drop place]

theorem step_pass (running : t.outcome? = none) (place : code.drop t.counter = token :: rest)
    (passes : token.kind = .debug ∨ token.kind = .number ∨ token.kind = .word) :
    step code t = t.next := by
  rw [step_token running place]
  rcases passes with kind | kind | kind <;> simp only [exec, kind]

theorem step_ended (ended : t.outcome? = some outcome) : step code t = t := by
  simp only [step, ended]

/-- Marks are passed over, one step each. -/
theorem iterate_marks (running : t.outcome? = none) (marks : Marks debugs)
    (place : code.drop t.counter = debugs ++ rest) :
    (step code)^[debugs.length] t = { t with counter := t.counter + debugs.length } := by
  induction debugs generalizing t with
  | nil => rfl
  | cons mark debugs ih =>
    have kind := marks mark (by simp)
    have passed : step code t = t.next := step_pass running place (.inl kind)
    have more := ih (t := t.next) running (fun other member => marks other (by simp [member]))
      (drop_next place)
    rw [List.length_cons, Function.iterate_succ_apply, passed, more]
    simp only [next, Nat.add_assoc, Nat.add_comm 1]

/-- At an opening bracket the loop is entered or jumped past. -/
theorem step_open (running : t.outcome? = none)
    (place : code.drop t.counter = token :: (middle ++ closing :: rest))
    (opens : token.kind = .loopOpen) (spelled : Spells middle body)
    (closes : closing.kind = .loopClose) :
    step code t = { t with
      counter := if t.tape.current = 0 then t.counter + 1 + middle.length + 1 else t.counter + 1 } := by
  have paired := (Source.bracketPairs_of_loop code opens spelled closes place).1
  rw [step_token running place]
  simp only [exec, opens, pastClose, paired]
  split <;> rfl

/-- At a closing bracket the machine goes back to the opening one. -/
theorem step_close {start : Nat} (running : t.outcome? = none)
    (loop : code.drop start = opening :: (middle ++ token :: rest))
    (place : t.counter = start + 1 + middle.length) (opens : opening.kind = .loopOpen)
    (spelled : Spells middle body) (closes : token.kind = .loopClose) :
    step code t = { t with counter := start } := by
  have paired := (Source.bracketPairs_of_loop code opens spelled closes loop).2
  have here : code.drop t.counter = token :: rest := by
    rw [place]
    exact drop_past (drop_next loop)
  rw [step_token running here]
  simp only [exec, closes, backToOpen, place, paired]

end TokenMachine

open TokenMachine

variable {code rest : List Token} {token : Token} {t : TokenMachine} {m n : Machine} {head : Header}
  {next : Block}

/-- What an action leaves of the two machines: the same tape and world, and either both go on or both
have ended with the same outcome. `n` is `m` after the action. -/
structure Agrees (m n : Machine) (next : Block) (t : TokenMachine) (past : Nat) : Prop where
  tape : t.tape = n.tape
  world : t.world = n.world
  ends : (t.outcome? = none ∧ t.counter = past ∧ n.phase = .arriving ∧
      n.frame = m.frame.past next ∧ n.outer = m.outer) ∨
    ∃ outcome, t.outcome? = some outcome ∧ n.phase = .halted outcome

theorem agrees_stop (reason : Stop) (tape : t.tape = n.tape) (world : t.world = n.world)
    (same : token.position = head.position) :
    Agrees m (n.stop head reason) next (t.stop token reason) past := by
  cases reason with
  | failure failure => exact ⟨tape, world, .inr ⟨_, by rw [← same]; rfl, rfl⟩⟩
  | fault fault => exact ⟨tape, world, .inr ⟨_, rfl, rfl⟩⟩

theorem agrees_advance (running : t.outcome? = none) (tape : t.tape = n.tape)
    (world : t.world = n.world) (frame : n.frame = m.frame) (outer : n.outer = m.outer) :
    Agrees m (n.advance next) next t.next (t.counter + 1) :=
  ⟨tape, world, .inl ⟨running, rfl, rfl, by rw [Machine.advance, frame], outer⟩⟩

/-- An action of one token does on the tokens what it does on the tree. -/
theorem agrees_simple (away : m.world.target ≠ .http) (running : t.outcome? = none)
    (tape : t.tape = m.tape) (world : t.world = m.world)
    (place : code.drop t.counter = token :: rest) (known : token.kind.action? = some action)
    (same : token.position = head.position) :
    Agrees m (m.perform head action next) next (step code t) (t.counter + 1) := by
  obtain ⟨counter, _, _, _⟩ := t
  subst tape world running
  rw [step_token rfl place]
  cases kind : token.kind <;> simp only [kind, Source.TokenKind.action?, Option.some.injEq,
    reduceCtorEq] at known <;> subst known <;> simp only [exec, kind, Machine.perform]
  case plus | minus | star => exact agrees_advance rfl rfl rfl rfl rfl
  case dot =>
    rw [Machine.output_away away, Machine.withWorld_eq]
    cases (m.world.broadcast m.tape.current).2 with
    | ok => exact agrees_advance rfl rfl rfl rfl rfl
    | error error => exact agrees_stop _ rfl rfl same
  case comma =>
    rw [Machine.input, Machine.withWorld_eq]
    cases got : m.world.read with
    | mk left read =>
      cases read with
      | ok byte => exact agrees_advance rfl rfl rfl rfl rfl
      | error error => exact agrees_stop _ rfl rfl same
  case moveRight =>
    unfold Tape.moveRight?
    split
    · exact agrees_advance rfl rfl rfl rfl rfl
    · exact agrees_stop _ rfl rfl same
  case moveLeft =>
    unfold Tape.moveLeft?
    split
    · exact agrees_advance rfl rfl rfl rfl rfl
    · exact agrees_stop _ rfl rfl same

/-- The argument of an action is passed over after the action, unless that ended the run. -/
theorem Agrees.pass (agrees : Agrees m n next t past) (place : code.drop past = token :: rest)
    (kind : token.kind = .number ∨ token.kind = .word) :
    Agrees m n next (step code t) (past + 1) := by
  rcases agrees.ends with ⟨running, rfl, arrived⟩ | ⟨outcome, ended, halted⟩
  · rw [step_pass running place (.inr kind)]
    exact ⟨agrees.tape, agrees.world, .inl ⟨running, rfl, arrived⟩⟩
  · rw [step_ended ended]
    exact ⟨agrees.tape, agrees.world, .inr ⟨outcome, ended, halted⟩⟩

/-- Every action does on its tokens what it does on the tree. -/
theorem agrees_action (away : m.world.target ≠ .http) (running : t.outcome? = none)
    (tape : t.tape = m.tape) (world : t.world = m.world)
    (place : code.drop t.counter = piece ++ rest) (spoken : Says piece (.act head action)) :
    Agrees m (m.perform head action next) next ((step code)^[piece.length] t)
      (t.counter + piece.length) := by
  cases spoken with
  | simple known => exact agrees_simple away running tape world place known rfl
  | push bar kind counts =>
    have second := drop_next place
    refine Agrees.pass ?_ second (.inl kind)
    obtain ⟨counter, _, _, _⟩ := t
    subst tape world running
    rw [step_token rfl place]
    simp only [exec, bar, getElem_of_drop second, Option.map_some, counts, Machine.perform]
    exact agrees_advance rfl rfl rfl rfl rfl
  | switch io kind named =>
    have second := drop_next place
    refine Agrees.pass ?_ second (.inr kind)
    obtain ⟨counter, _, _, _⟩ := t
    subst tape world running
    rw [step_token rfl place]
    simp only [exec, io, getElem_of_drop second, Source.Target.ofName?_eq_some_iff.mp named,
      Machine.perform, Machine.withWorld_eq]
    cases (m.world.switch _).2 with
    | ok => exact agrees_advance rfl rfl rfl rfl rfl
    | error reason => exact agrees_stop reason rfl rfl rfl

/-! ## The simulation -/

/-- Only looking at a statement may cost the counter nothing. -/
def haste (m : Machine) : Nat := if m.phase = .arriving then 1 else 0

/-- The next state of the tree is answered by some steps of the counter. -/
def Answered (code : List Token) (m : Machine) (t : TokenMachine) : Prop :=
  ∃ k, Follows code m.step ((step code)^[k] t) ∧ (k = 0 → haste m.step < haste m)

theorem Follows.after (follows : Follows code m t) (tape : u.tape = m.step.tape)
    (world : u.world = m.step.world) (solo : m.step.world.session = none)
    (placed : Placed code m.step u) : Follows code m.step u :=
  ⟨tape, world, Machine.step_tape.2 follows.inside, solo, follows.offline.step, placed⟩

/-- A statement is looked at while the counter passes over its marks. -/
theorem Follows.look (follows : Follows code m t) (phase : m.phase = .arriving)
    (first : m.frame.rest.uncons? = some (s, next)) : Answered code m t := by
  have step : m.step = { m with phase := .ready } := by
    simp [Machine.step, phase, first, Machine.look, Machine.attached, follows.solo]
  have placed := follows.placed
  simp only [Placed, phase] at placed
  obtain ⟨running, here, after, place, spelled, enclosed⟩ := placed
  obtain ⟨debugs, piece, tokens, rfl, marks, -, spoken, rest⟩ := spelled.uncons first
  have passed := iterate_marks running marks (by rw [place, List.append_assoc])
  refine ⟨debugs.length, ?_, fun _ => by simp [haste, step, phase]⟩
  rw [passed]
  apply follows.after
  · rw [step]; exact follows.tape
  · rw [step]; exact follows.world
  · rw [step]; exact follows.solo
  · rw [step]
    refine ⟨running, piece, s, tokens, next, after, ?_, spoken, Block.eq_cons_of_uncons first, rest,
      enclosed⟩
    exact drop_past (by rw [place]; simp)

/-- At the end of the program both machines end. -/
theorem Follows.endProgram (follows : Follows code m t) (step : m.step = m.endBlock)
    (around : m.outer = []) (running : t.outcome? = none) (beyond : code.drop t.counter = []) :
    Answered code m t := by
  have ended : m.step = { m with steering := m.steering.blockEnded m.depth }.halt .completed := by
    simp only [step, Machine.endBlock, around]
  have last : (TokenMachine.step code)^[1] t = t.halt .completed := by
    have none : code[t.counter]? = none := List.getElem?_eq_none (List.drop_eq_nil_iff.mp beyond)
    simp only [Function.iterate_one, TokenMachine.step, running, none]
  refine ⟨1, ?_, by simp⟩
  rw [last]
  apply follows.after <;> rw [ended]
  · exact follows.tape
  · exact follows.world
  · exact follows.solo
  · rfl

/-- At the end of a body the counter jumps back, and both test the cell. -/
theorem Follows.endBody {after : List Token} (follows : Follows code m t)
    (phase : m.phase = .arriving) (step : m.step = m.endBlock) (around : m.outer = parent :: outer)
    (running : t.outcome? = none) (place : code.drop t.counter = after)
    (enclosed : Enclosed code m.frame.block m.outer after) : Answered code m t := by
  have cell : m.tape.hasCell = true := Tape.hasCell_iff.mpr follows.inside
  have whole := enclosed
  rw [around] at enclosed
  obtain ⟨start, opening, middle, closing, tail, rest, head, next, loop, opens, body, rfl, closes,
    standing, spelled, beyond⟩ := enclosed
  have length : t.counter = start + 1 + middle.length := by
    have total := congrArg List.length loop
    have left := congrArg List.length place
    simp only [List.length_drop, List.length_cons, List.length_append] at total left
    omega
  have back := step_close running loop length opens body closes
  have test := step_open (t := { t with counter := start }) running loop opens body closes
  have ran : (TokenMachine.step code)^[2] t = { t with
      counter := if t.tape.current = 0 then start + 1 + middle.length + 1 else start + 1 } := by
    rw [Function.iterate_succ_apply, back, Function.iterate_one, test]
  refine ⟨2, ?_, by simp⟩
  rw [ran, follows.tape]
  by_cases zero : m.tape.current = 0
  · have left : m.step = { m with
        frame := parent.past next, outer, phase := .arriving,
        steering := m.steering.blockEnded m.depth } := by
      simp [step, Machine.endBlock, around, cell, zero, standing, Block.uncons?, Machine.advance]
    apply follows.after <;> rw [left]
    · exact follows.world
    · exact follows.solo
    · refine ⟨running, tail, rest, ?_, spelled, beyond⟩
      simp only [zero, ↓reduceIte]
      exact drop_next (drop_past (drop_next loop))
  · have again : m.step = { m with
        frame := .enter m.frame.block, steering := m.steering.blockEnded m.depth } := by
      simp [step, Machine.endBlock, around, cell, zero]
    apply follows.after <;> rw [again]
    · exact follows.world
    · exact follows.solo
    · simp only [Placed, phase, zero, ↓reduceIte]
      exact ⟨running, middle, _, drop_next loop, body, whole⟩

theorem Follows.endBlock (follows : Follows code m t) (phase : m.phase = .arriving)
    (first : m.frame.rest.uncons? = none) : Answered code m t := by
  have step : m.step = m.endBlock := by simp only [Machine.step, phase, first]
  have placed := follows.placed
  simp only [Placed, phase] at placed
  obtain ⟨running, here, after, place, spelled, enclosed⟩ := placed
  obtain rfl : here = [] := Spells.eq_nil (Block.eq_nil_of_uncons first ▸ spelled)
  rw [List.nil_append] at place
  cases around : m.outer with
  | nil =>
    rw [around] at enclosed
    obtain rfl : after = [] := enclosed
    exact follows.endProgram step around running place
  | cons parent outer => exact follows.endBody phase step around running place enclosed

/-- An action is answered by its own tokens. -/
theorem Follows.perform (follows : Follows code m t) (phase : m.phase = .ready)
    (rest : m.frame.rest = .act head action next) : Answered code m t := by
  have cell : m.tape.hasCell = true := Tape.hasCell_iff.mpr follows.inside
  have step : m.step = m.perform head action next := by
    simp [Machine.step, phase, Machine.act, rest, cell]
  have placed := follows.placed
  simp only [Placed, phase] at placed
  obtain ⟨running, piece, s, tail, next', after, place, spoken, same, spelled, enclosed⟩ := placed
  obtain ⟨rfl, rfl⟩ : s = .act head action ∧ next' = next := by
    cases s <;> simp_all [Block.cons]
  obtain ⟨first, more, nonempty, -⟩ := spoken.action_tokens
  have agrees : Agrees m (m.perform head action next') next' _ _ :=
    agrees_action follows.offline.away running follows.tape follows.world place spoken
  refine ⟨piece.length, follows.after ?_ ?_ ?_ ?_, by simp [nonempty]⟩ <;> rw [step]
  · exact agrees.tape
  · exact agrees.world
  · exact (follows.offline.perform rest).2.solo follows.solo
  · rcases agrees.ends with ⟨running, counter, arriving, frame, outer⟩ | ⟨outcome, ended, halted⟩
    · simp only [Placed, arriving]
      refine ⟨running, tail, after, ?_, ?_⟩
      · rw [counter]
        exact drop_past place
      · rw [frame, outer]
        exact ⟨spelled, enclosed⟩
    · simp only [Placed, halted]
      exact ended

/-- A loop is entered or jumped past. -/
theorem Follows.loop (follows : Follows code m t) (phase : m.phase = .ready)
    (rest : m.frame.rest = .loop head body next) : Answered code m t := by
  have cell : m.tape.hasCell = true := Tape.hasCell_iff.mpr follows.inside
  have placed := follows.placed
  simp only [Placed, phase] at placed
  obtain ⟨running, piece, s, tail, next', after, place, spoken, same, spelled, enclosed⟩ := placed
  obtain ⟨rfl, rfl⟩ : s = .loop head body ∧ next' = next := by
    cases s <;> simp_all [Block.cons]
  cases spoken with
  | @loop middle _ _ opening closing opens body' closes =>
    have loop : code.drop t.counter = opening :: (middle ++ closing :: (tail ++ after)) := by
      rw [place]; simp
    have test := step_open running loop opens body' closes
    refine ⟨1, ?_, by simp⟩
    rw [Function.iterate_one, test, follows.tape]
    by_cases zero : m.tape.current = 0
    · have past : m.step = m.advance next' := by
        simp [Machine.step, phase, Machine.act, rest, cell, zero]
      apply follows.after <;> rw [past]
      · rfl
      · exact follows.world
      · exact follows.solo
      · refine ⟨running, tail, after, ?_, spelled, enclosed⟩
        simp only [zero, ↓reduceIte]
        exact drop_next (drop_past (drop_next loop))
    · have enter : m.step = { m with
          frame := .enter body, outer := m.frame :: m.outer, phase := .arriving } := by
        simp [Machine.step, phase, Machine.act, rest, cell, zero]
      apply follows.after <;> rw [enter]
      · exact follows.world
      · exact follows.solo
      · simp only [Placed, zero, ↓reduceIte]
        exact ⟨running, middle, closing :: (tail ++ after), drop_next loop, body', t.counter, opening,
          middle, closing, tail, after, _, next', loop, opens, body', rfl, closes, rest, spelled,
          enclosed⟩

/-- Whatever the machine on the tree does, the machine on the tokens answers. -/
theorem Follows.step (follows : Follows code m t) (going : m.outcome? = none) :
    Answered code m t := by
  cases phase : m.phase with
  | halted outcome => simp [Machine.outcome?, phase] at going
  | paused =>
    have placed := follows.placed
    simp only [Placed, phase] at placed
  | arriving =>
    cases first : m.frame.rest.uncons? with
    | some found => exact follows.look phase first
    | none => exact follows.endBlock phase first
  | ready =>
    cases rest : m.frame.rest with
    | nil =>
      have placed := follows.placed
      simp only [Placed, phase] at placed
      obtain ⟨-, -, s, -, next, -, -, -, same, -⟩ := placed
      cases s <;> simp [rest, Block.cons] at same
    | act head action next => exact follows.perform phase rest
    | loop head body next => exact follows.loop phase rest

/-- Machines in step have ended with the same, or have not ended. -/
theorem Follows.alike (follows : Follows code m t) (path : String) :
    m.ending? path = t.ending? path := by
  have outcome : t.outcome? = m.outcome? := by
    have placed := follows.placed
    unfold Placed at placed
    unfold Machine.outcome?
    split at placed <;> simp_all
  unfold Machine.ending? TokenMachine.ending?
  rw [outcome, follows.tape, follows.world]
  rfl

/-- The states of a run in step with one on the tokens are all in step with one. -/
theorem Follows.iterate (follows : Follows code m t) (n : Nat) :
    ∃ u, Follows code (Machine.step^[n] m) u := by
  induction n generalizing m t with
  | zero => exact ⟨t, follows⟩
  | succ n ih =>
    cases halted : m.outcome? with
    | some outcome =>
      rw [Function.iterate_fixed (Machine.step_of_halted halted)]
      exact ⟨t, follows⟩
    | none =>
      obtain ⟨k, follows', -⟩ := follows.step halted
      exact ih follows'

/-- The two machines, each with what it ends with. -/
def inStep (code : List Token) (path : String) :
    Stuttering.Simulation Machine.step (step code) (Machine.ending? · path)
      (TokenMachine.ending? · path) (Follows code) where
  rank := haste
  alike _ _ follows := follows.alike path
  answer _ _ follows going := follows.step (Machine.ending_eq_none_iff.mp going)

theorem settles_token_step (code : List Token) (path : String) :
    Stuttering.Settles (step code) (TokenMachine.ending? · path) := by
  intro t e ended
  obtain ⟨outcome, halted, -⟩ := Option.map_eq_some_iff.mp ended
  rwa [step_ended halted]

/-- Before the first step the counter stands at the first token. -/
theorem follows_start {world : World} (parsed : Source.Block.parse source = .ok program)
    (offline : program.isOffline = true) (solo : world.session = none)
    (away : world.target ≠ .http) :
    Follows (Source.tokenize source) (.start program (Tape.blank Tape.standardSize) world)
      { tape := Tape.blank Tape.standardSize, world } where
  tape := rfl
  world := rfl
  inside := Tape.inBounds_blank (by decide)
  solo := solo
  offline := Machine.offline_start offline _ away
  placed := ⟨rfl, Source.tokenize source, [], by simp, Source.spells_of_parse parsed, rfl⟩

/-- A text that parses, run as a tree, halts with an ending exactly when its tokens, run in place,
halt with that ending: the same exit code, console output, error text, tape, target and files. The
program has no `io http`, and no client is attached. -/
theorem parsed_run_iff_token_run {world : World} (parsed : Source.Block.parse source = .ok program)
    (offline : program.isOffline = true) (solo : world.session = none)
    (away : world.target ≠ .http) (path : String) (e : Ending) :
    (Machine.start program (Tape.blank Tape.standardSize) world).EndsWith path e ↔
      TokenMachine.EndsWith (Source.tokenize source)
        { tape := Tape.blank Tape.standardSize, world } path e := by
  have follows := follows_start parsed offline solo away
  have awake (n : Nat) :
      (Machine.step^[n] (.start program (Tape.blank Tape.standardSize) world)).waits = false := by
    obtain ⟨u, follows'⟩ := follows.iterate n
    exact follows'.offline.awake follows'.solo
  rw [Machine.endsWith_iff_iterate awake]
  exact (inStep _ path).ends_iff (Machine.settles_step path) (settles_token_step _ path) follows

/-- A loop with a mark inside it, and a switch after it. -/
theorem parsed_run_iff_token_run_marked_loop :
    ∃ program, Source.Block.parse "++[debug -]io std.".toList = .ok program ∧
      program.isOffline = true ∧ ({} : World).session = none ∧ ({} : World).target ≠ .http ∧
      ∀ path e, (Machine.start program (Tape.blank Tape.standardSize) {}).EndsWith path e ↔
        TokenMachine.EndsWith (Source.tokenize "++[debug -]io std.".toList)
          { tape := Tape.blank Tape.standardSize, world := {} } path e := by
  have tokens : Source.tokenize "++[debug -]io std.".toList =
      [⟨.plus, ['+'], ⟨1, 1⟩⟩, ⟨.plus, ['+'], ⟨1, 2⟩⟩, ⟨.loopOpen, ['['], ⟨1, 3⟩⟩,
        ⟨.debug, ['d', 'e', 'b', 'u', 'g'], ⟨1, 4⟩⟩, ⟨.minus, ['-'], ⟨1, 10⟩⟩,
        ⟨.loopClose, [']'], ⟨1, 11⟩⟩, ⟨.io, ['i', 'o'], ⟨1, 12⟩⟩,
        ⟨.word, ['s', 't', 'd'], ⟨1, 15⟩⟩, ⟨.dot, ['.'], ⟨1, 18⟩⟩] := by
    decide +kernel
  have parsed : Source.Block.parse "++[debug -]io std.".toList =
      .ok (.act ⟨⟨1, 1⟩, false⟩ .increment (.act ⟨⟨1, 2⟩, false⟩ .increment
        (.loop ⟨⟨1, 3⟩, false⟩ (.act ⟨⟨1, 10⟩, true⟩ .decrement .nil)
          (.act ⟨⟨1, 12⟩, false⟩ (.switch "std") (.act ⟨⟨1, 18⟩, false⟩ .output .nil))))) := by
    rw [Source.Block.parse, tokens]
    rfl
  refine ⟨_, parsed, by decide, rfl, by decide, ?_⟩
  intro path e
  exact parsed_run_iff_token_run parsed (by decide) rfl (by decide) path e

end TapeLang

import TapeLang.Proofs.Brackets
import TapeLang.Proofs.Ending

/-!
A machine without a tree: it keeps a program counter into the token list of a text and a table of the
brackets that belong together. `[` jumps past its partner when the current cell is zero, `]` jumps
back to its partner, a `debug` is passed over, and every other token acts at once; the number after a
bar and the word after `io` are read by the token before them.
-/
namespace TapeLang

open Source (Token bracketPairs)

structure TokenMachine where
  /-- the index of the next token -/
  counter : Nat := 0
  tape : Tape
  world : World
  outcome? : Option Outcome := none

namespace TokenMachine

/-- The index after the bracket that closes a loop. -/
def pastClose (code : List Token) (start : Nat) : Nat :=
  match (bracketPairs code).find? (·.1 = start) with
  | some (_, stop) => stop + 1
  | none => start + 1

/-- The index of the bracket that opened a loop. -/
def backToOpen (code : List Token) (stop : Nat) : Nat :=
  match (bracketPairs code).find? (·.2 = stop) with
  | some (start, _) => start
  | none => stop + 1

/-- Goes on with the next token. -/
def next (m : TokenMachine) : TokenMachine := { m with counter := m.counter + 1 }

def halt (m : TokenMachine) (outcome : Outcome) : TokenMachine := { m with outcome? := some outcome }

/-- Ends the run at a token. -/
def stop (m : TokenMachine) (token : Token) : Stop → TokenMachine
  | .failure failure => m.halt (.failed failure token.position)
  | .fault fault => m.halt (.broken fault)

/-- Goes on with the next token if the operation went through. -/
def nextIf (m : TokenMachine) (token : Token) : Except Stop Unit → TokenMachine
  | .ok () => m.next
  | .error reason => m.stop token reason

/-- One token acts. -/
def exec (code : List Token) (m : TokenMachine) (token : Token) : TokenMachine :=
  match token.kind with
  | .plus => { m with tape := m.tape.increment }.next
  | .minus => { m with tape := m.tape.decrement }.next
  | .star => { m with tape := m.tape.clear }.next
  | .moveRight =>
    match m.tape.moveRight? with
    | some tape => { m with tape }.next
    | none => m.stop token (.failure .overflow)
  | .moveLeft =>
    match m.tape.moveLeft? with
    | some tape => { m with tape }.next
    | none => m.stop token (.failure .underflow)
  | .dot =>
    let (world, sent) := m.world.broadcast m.tape.current
    { m with world }.nextIf token (sent.mapError fun error => .failure (.os error))
  | .comma =>
    match m.world.read with
    | (world, .ok byte) => { m with world, tape := m.tape.write byte }.next
    | (world, .error error) => { m with world }.stop token (.failure (.os error))
  | .bar =>
    match code[m.counter + 1]?.map fun number => Source.pushValue number.lexeme with
    | some (.ok value) => { m with tape := m.tape.write (Tape.byte value) }.next
    | _ => m.next
  | .io =>
    match code[m.counter + 1]? with
    | some word =>
      let (world, switched) := m.world.switch (String.ofList word.lexeme)
      { m with world }.nextIf token switched
    | none => m.next
  | .loopOpen =>
    if m.tape.current = 0 then { m with counter := pastClose code m.counter } else m.next
  | .loopClose => { m with counter := backToOpen code m.counter }
  | .debug | .number | .word => m.next

/-- One step. A machine that has ended stays; one past the last token ends. -/
def step (code : List Token) (m : TokenMachine) : TokenMachine :=
  match m.outcome?, code[m.counter]? with
  | some _, _ => m
  | none, some token => m.exec code token
  | none, none => m.halt .completed

/-- The ending of a machine for the program at a path, if it has halted: after the report and the
release of everything. -/
def ending? (m : TokenMachine) (path : String) : Option Ending :=
  m.outcome?.map fun outcome =>
    let (reported, result) := Machine.settleOutcome m.world path outcome
    let (left, code) := reported.release result
    Ending.of left m.tape code

/-- The machine halts on these tokens, and with this ending. -/
def EndsWith (code : List Token) (m : TokenMachine) (path : String) (e : Ending) : Prop :=
  ∃ n, ((step code)^[n] m).ending? path = some e

end TokenMachine
end TapeLang

import TapeLang.Source.Position

/-!
Programs. A program is a block: a sequence of statements, each an action or a loop over a block of
its own. The block type names its first statement, so that a proof about programs is one induction.

A statement is identified by its site: the index in its block, then the index of the loop around it
in that loop's block, and so on outwards. Two statements of one program never share a site, and
knowing the site needs nothing but the place where execution stands.
-/
namespace TapeLang.Source

/-- Where output goes and input comes from. -/
inductive Target where
  | std
  | file
  | http
  | tcp
deriving DecidableEq, Repr

/-- The name of a target in programs and reports. -/
def Target.name : Target → String
  | .std => "std"
  | .file => "file"
  | .http => "http"
  | .tcp => "tcp"

/-- The target of a name. -/
def Target.ofName? (name : String) : Option Target :=
  [.std, .file, .http, .tcp].find? fun target => target.name == name

/-- Names and targets determine each other. -/
theorem Target.ofName?_eq_some_iff {name : String} {target : Target} :
    ofName? name = some target ↔ name = target.name := by
  constructor
  · intro found
    have hit := List.find?_some found
    exact (beq_iff_eq.mp hit).symm
  · rintro rfl
    cases target <;> decide

/-- What a statement other than a loop does. `none` has no meaning: a program that was not read
from a text may hold it, and running it is a fault. -/
inductive Action where
  | increment
  | decrement
  | moveRight
  | moveLeft
  | clear
  | output
  | input
  | push (value : Int)
  | switch (target : String)
  | none
deriving DecidableEq, Repr, Inhabited

/-- The name of an action in snapshots. -/
def Action.name : Action → String
  | .increment => "Increment"
  | .decrement => "Decrement"
  | .moveRight => "MoveRight"
  | .moveLeft => "MoveLeft"
  | .clear => "Clear"
  | .output => "Output"
  | .input => "Input"
  | .push _ => "Push"
  | .switch _ => "SwitchIOTarget"
  | .none => "Statement"

/-- What every statement carries: where it stands and whether a `debug` marks it. -/
structure Header where
  position : Position := {}
  marked : Bool := false
deriving DecidableEq, Repr, Inhabited

/-- A sequence of statements. -/
inductive Block where
  | nil
  | act (head : Header) (action : Action) (next : Block)
  | loop (head : Header) (body : Block) (next : Block)
deriving DecidableEq, Repr, Inhabited

/-- One statement on its own. -/
inductive Statement where
  | act (head : Header) (action : Action)
  | loop (head : Header) (body : Block)
deriving DecidableEq, Repr, Inhabited

namespace Statement

def head : Statement → Header
  | .act head _ => head
  | .loop head _ => head

/-- The name of a kind of statement in snapshots. -/
def name : Statement → String
  | .act _ action => action.name
  | .loop _ _ => "Loop"

end Statement

namespace Block

/-- Puts a statement before a block. -/
def cons : Statement → Block → Block
  | .act head action, next => .act head action next
  | .loop head body, next => .loop head body next

/-- The first statement and the statements after it. -/
def uncons? : Block → Option (Statement × Block)
  | .nil => none
  | .act head action next => some (.act head action, next)
  | .loop head body next => some (.loop head body, next)

/-- The statements of a block, without those inside its loops. -/
def statements : Block → List Statement
  | .nil => []
  | .act head action next => .act head action :: next.statements
  | .loop head body next => .loop head body :: next.statements

/-- The number of statements, without those inside loops. -/
def length : Block → Nat
  | .nil => 0
  | .act _ _ next => next.length + 1
  | .loop _ _ next => next.length + 1

/-- The block of statements that are given last first, before a block. -/
def prependReversed (next : Block) : List Statement → Block
  | [] => next
  | s :: before => prependReversed (cons s next) before

/-- The block of statements that are given last first. -/
def ofReversed (statements : List Statement) : Block := prependReversed .nil statements

/-! ## Sites -/

/-- The place of a statement: indices from the innermost block outwards. -/
abbrev Site := List Nat

/-- The statements of a block and of its loops, depth first, with their sites. `index` is the index
of the first statement and `around` the site of the loop around the block. -/
def walkFrom (index : Nat) (around : Site) : Block → List (Site × Statement)
  | .nil => []
  | .act head action next =>
    (index :: around, .act head action) :: walkFrom (index + 1) around next
  | .loop head body next =>
    (index :: around, .loop head body) ::
      (walkFrom 0 (index :: around) body ++ walkFrom (index + 1) around next)

/-- Every statement of a program, depth first, with its site. -/
def walk (program : Block) : List (Site × Statement) := walkFrom 0 [] program

/-! ## Views -/

@[simp] theorem statements_cons (s : Statement) (next : Block) :
    (cons s next).statements = s :: next.statements := by
  cases s <;> rfl

@[simp] theorem uncons_cons (s : Statement) (next : Block) : (cons s next).uncons? = some (s, next) := by
  cases s <;> rfl

theorem eq_cons_of_uncons {block next : Block} {s : Statement}
    (first : block.uncons? = some (s, next)) : block = .cons s next := by
  cases block with
  | nil => simp [uncons?] at first
  | act | loop =>
    obtain ⟨rfl, rfl⟩ := Prod.mk.inj (Option.some.inj first)
    rfl

theorem eq_nil_of_uncons {block : Block} (first : block.uncons? = none) : block = .nil := by
  cases block <;> simp [uncons?] at first ⊢

@[simp] theorem length_statements (b : Block) : b.statements.length = b.length := by
  induction b with
  | nil => rfl
  | act _ _ _ ih => simp [statements, length, ih]
  | loop _ _ _ _ ih => simp [statements, length, ih]

theorem statements_prependReversed (next : Block) (before : List Statement) :
    (prependReversed next before).statements = before.reverse ++ next.statements := by
  induction before generalizing next with
  | nil => rfl
  | cons s before ih => simp [prependReversed, ih]

/-- A block is determined by its statements. -/
theorem ext_statements {a b : Block} (same : a.statements = b.statements) : a = b := by
  induction a generalizing b with
  | nil => cases b <;> simp [statements] at same ⊢
  | act _ _ _ ih =>
    cases b <;> simp [statements] at same ⊢
    exact ⟨same.1.1, same.1.2, ih same.2⟩
  | loop _ _ _ _ ih =>
    cases b <;> simp [statements] at same ⊢
    exact ⟨same.1.1, same.1.2, ih same.2⟩

theorem ofReversed_reverse_statements (b : Block) : ofReversed b.statements.reverse = b :=
  ext_statements (by simp [ofReversed, statements_prependReversed, statements])

end Block
end TapeLang.Source

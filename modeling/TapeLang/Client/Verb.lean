import TapeLang.Client.Arguments
import TapeLang.Client.Control

/-!
The commands of a debugger as they are typed. A command has a name and shorter ones; it may take numbers.
What it asks for is read from the words after its name before anything is done.
-/
namespace TapeLang.Client

inductive Verb where
  | help
  | state
  | step
  | next
  | out
  | resume
  | move
  | assign
  | exit
deriving DecidableEq, Repr

namespace Verb

/-- All commands, as they are listed. -/
def all : List Verb := [.help, .state, .step, .next, .out, .resume, .move, .assign, .exit]

def name : Verb → String
  | .help => "help"
  | .state => "state"
  | .step => "step"
  | .next => "next"
  | .out => "out"
  | .resume => "continue"
  | .move => "move"
  | .assign => "assign"
  | .exit => "exit"

/-- Other names. -/
def aliases : Verb → List String
  | .help => ["?"]
  | .state => ["where", "info"]
  | .step => ["s"]
  | .next => ["n"]
  | .out => ["finish"]
  | .resume => ["c", "cont", "resume"]
  | .move => ["mv"]
  | .assign => ["set"]
  | .exit => ["quit", "q"]

/-- The numbers that stand after the name, as the help shows them. -/
def usage : Verb → String
  | .move => "CELL"
  | .assign => "CELL VALUE"
  | _ => ""

/-- The numbers that stand after the name, as messages call them. -/
def operands : Verb → List String
  | .move => ["cell"]
  | .assign => ["cell", "value"]
  | _ => []

def description : Verb → String
  | .help => "Show available commands"
  | .state => "Show where the program is paused"
  | .step => "Execute the current statement and pause at the next"
  | .next => "Step over the next sibling statement"
  | .out => "Abandon the current loop and pause after it"
  | .resume => "Resume until the next marked statement"
  | .move => "Move the cursor to CELL and step"
  | .assign => "Store VALUE into CELL and stay paused"
  | .exit => "Detach and leave; a paused program continues unattended"

def names (verb : Verb) : List String := verb.name :: verb.aliases

/-- The command of a name. -/
def ofName? (word : Text) : Option Verb :=
  all.find? fun verb => verb.names.any (Text.ofString · == word)

/-- The line that the help has for a command. -/
def helpLine (verb : Verb) : String :=
  let synopsis := if verb.usage = "" then verb.name else verb.name ++ " " ++ verb.usage
  let padding := "".pushn ' ' (20 - synopsis.length)
  let others := if verb.aliases = [] then "" else " (aliases: " ++ ", ".intercalate verb.aliases ++ ")"
  synopsis ++ padding ++ " " ++ verb.description ++ others

/-- What lets the program go on, if the command does so. -/
def control? : Verb → List Int → Option Control
  | .step, [] => some .step
  | .next, [] => some .next
  | .out, [] => some .out
  | .resume, [] => some .resume
  | .move, [cell] => some (.move cell)
  | .assign, [cell, value] => some (.assign cell value)
  | _, _ => none

end Verb

/-- What a debugger is to do. -/
inductive Task where
  | help
  /-- show where the program is paused -/
  | look
  /-- let the program go on -/
  | control (control : Control)
  | leave
deriving DecidableEq, Repr

/-- Why the words after a command ask for nothing. -/
inductive Refusal where
  /-- the command takes no arguments -/
  | crowded
  | misused (misuse : Arguments.Misuse)
  /-- reading the arguments goes wrong -/
  | unfilled
deriving DecidableEq, Repr

namespace Verb

/-- What a command that lets the program go on asks for. -/
def order (verb : Verb) (numbers : List Int) : Except Refusal Task :=
  match verb.control? numbers with
  | some control => .ok (.control control)
  | none => .error .crowded

/-- What a command asks for. Words that it has no use for are passed over, unless it lets the program go
on. -/
def task (verb : Verb) (arguments : List Text) : Except Refusal Task :=
  match verb with
  | .help => .ok .help
  | .state => .ok .look
  | .exit => .ok .leave
  | .move | .assign =>
    match Arguments.parse verb.operands arguments with
    | .ok numbers => verb.order numbers
    | .error (.misused misuse) => .error (.misused misuse)
    | .error .unfilled => .error .unfilled
  | _ => if arguments.isEmpty then verb.order [] else .error .crowded

/-- No two commands have a name in common. -/
theorem ofName?_name {verb : Verb} {name : String} (named : name ∈ verb.names) :
    ofName? (.ofString name) = some verb := by
  revert name
  cases verb <;> decide

/-- Numbers that have been read are those that the command needs. -/
theorem order_parse {verb : Verb} {arguments : List Text} {numbers : List Int}
    (takes : verb.operands ≠ []) (parsed : Arguments.parse verb.operands arguments = .ok numbers) :
    ∃ control, verb.order numbers = .ok (.control control) := by
  have length := Arguments.length_parse parsed
  cases verb <;> first | exact absurd rfl takes | skip
  case move =>
    match numbers, length with
    | [cell], rfl => exact ⟨.move cell, rfl⟩
  case assign =>
    match numbers, length with
    | [cell, value], rfl => exact ⟨.assign cell value, rfl⟩

end Verb
end TapeLang.Client

import TapeLang.Client.Display
import TapeLang.Client.Verb
import TapeLang.Client.View

/-!
What a debugger reports of its commands. Results and errors come as a line of text or as a JSON record.
What is wrong with the line of a command is told in plain text in either form, and what is wrong with its
numbers goes to the error stream.
-/
namespace TapeLang.Client

open Debug (Snapshot)

/-- What is shown of where the program is. -/
inductive View where
  | exited (code : Int)
  | running
  | paused (snapshot : Snapshot)
  /-- there is no program to be seen -/
  | failed (reason : String)

/-- The code that is returned with a view. -/
def View.status : View → Int
  | .failed _ => 2
  | _ => 0

/-- The view for an exit code and a pause, as far as they are known. -/
def View.ofKnown : Option Int → Option Snapshot → View
  | some code, _ => .exited code
  | none, some snapshot => .paused snapshot
  | none, none => .running

def Context.view (c : Context) : View := .ofKnown c.exitCode c.lastState

inductive Report where
  | reply (reply : Reply)
  | view (view : View)
  | help
  /-- the program is left alone -/
  | detaching
  | crowded (verb : Verb)
  | misused (verb : Verb) (misuse : Arguments.Misuse)
  /-- the line has no words -/
  | unreadable (reason : Text)
  | unknown (name : Text)

namespace Report

/-- The code that a command returns. -/
def status : Report → Int
  | .reply answer => answer.status
  | .view seen => seen.status
  | .help | .detaching => 0
  | .crowded _ | .misused .. | .unreadable _ | .unknown _ => 1

/-- A line of text. -/
def line (t : Text) : Text := t ++ [0xA]

/-- A result. -/
def result (form : Form) (message : Text) (data : List (String × Json)) : Shown :=
  match form with
  | .text => { out := line message }
  | .json =>
    { out := line (Json.indented 0 (.ofPairs [("status", .ofString "ok"), ("result", .ofPairs data)])) }

/-- An error. -/
def error (form : Form) (message : String) : Shown :=
  match form with
  | .text => { out := line (.ofString s!"error: {message}") }
  | .json =>
    { out := line (Json.indented 0 (.ofPairs [("status", .ofString "error"), ("error", .ofString message)])) }

/-- The result of an exit. -/
def exit (form : Form) (code : Int) : Shown :=
  result form (.ofString s!"program exited with code {code}") [("exit", .int code)]

/-- The result of a halt. -/
def pause (form : Form) (snapshot : Snapshot) (more : List (String × Json)) : Shown :=
  result form (snapshot.render standardWidth) (snapshot.summary ++ more)

/-- What is written of a reply. -/
def ofReply (form : Form) : Reply → Shown
  | .paused snapshot => pause form snapshot []
  | .exited code => exit form code
  | wrong => wrong.error?.elim {} (error form)

/-- What is written of a view. -/
def ofView (form : Form) : View → Shown
  | .paused snapshot => pause form snapshot [("tape", .array (snapshot.tape.map .int))]
  | .exited code => exit form code
  | .running => result form (.ofString "program is running") [("state", .ofString "running")]
  | .failed reason => error form reason

/-- What is written of a report. -/
def shown (form : Form) : Report → Shown
  | .reply answer => ofReply form answer
  | .view seen => ofView form seen
  | .help => { out := Verb.all.flatMap fun verb => line (.ofString verb.helpLine) }
  | .detaching => result form (.ofString "detaching; program keeps running") [("detached", .bool true)]
  | .crowded verb => error form s!"{verb.name} takes no arguments"
  | .misused verb misuse => { err := Arguments.usage verb.name verb.operands misuse }
  | .unreadable reason => { out := line (.ofString "Parse error: " ++ reason) }
  | .unknown name => { out := line (.ofString "Unknown command: " ++ name) }

end Report
end TapeLang.Client

import TapeLang.BindAddress
import TapeLang.Debug.Wire
import TapeLang.Host.Files
import TapeLang.Source.Parser
import TapeLang.Tape
import TapeLang.WaitGroup

/-!
How a run ends early. A failure is the program's: it is reported with the place of the statement and
gives the run a failing exit code. A fault is none of the program's outcomes: it leaves the run as it
is, without a report.
-/
namespace TapeLang

/-- What can go wrong at a statement. -/
inductive Failure where
  | overflow
  | underflow
  | os (error : Host.OsError)
  /-- a path holds a null character -/
  | embeddedNull
  | badAddress (text : String)
  | unknownTarget (name : String)
  | protocol (error : Debug.ProtocolError)
deriving DecidableEq, Repr

def Failure.message : Failure → String
  | .overflow => "stack overflow"
  | .underflow => "stack underflow"
  | .os error => error.message
  | .embeddedNull => Host.OpenFault.embeddedNull.message
  | .badAddress text => BindAddress.refusal text
  | .unknownTarget name => s!"unknown io target '{name}'"
  | .protocol error => error.message

/-- What leaves a run without a report. -/
inductive Fault where
  | portOutOfRange
  /-- a statement without a meaning -/
  | unsupported (name : String)
  | number (fault : Debug.NumberFault)
  | numeral (fault : Text.Numeral.Fault)
  | os (error : Host.OsError)
  | wait (fault : WaitFault)
  | tape (fault : Tape.Fault)
  | encoding (fault : Text.Utf8.Fault)
  | embeddedNull
deriving DecidableEq, Repr

def Fault.message : Fault → String
  | .portOutOfRange => "bind(): port must be 0-65535."
  | .unsupported name => s!"unsupported statement {name}"
  | .number fault => fault.message
  | .numeral fault => fault.message
  | .os error => error.message
  | .wait fault => fault.message
  | .tape fault => fault.message
  | .encoding fault => fault.message
  | .embeddedNull => Host.OpenFault.embeddedNull.message

/-- Why an operation did not go through. -/
inductive Stop where
  | failure (failure : Failure)
  | fault (fault : Fault)
deriving DecidableEq, Repr

/-! ## Reports -/

/-- Kinds of error reports. -/
inductive ErrorKind where
  | uncaught
  | grammar
  | overflow
  | underflow
deriving DecidableEq, Repr

namespace ErrorKind

def name : ErrorKind → String
  | .uncaught => "uncaught"
  | .grammar => "syntax"
  | .overflow => "stack-overflow"
  | .underflow => "stack-underflow"

/-- The first line of a report. -/
def headline : ErrorKind → String
  | .uncaught => "Program threw an error:"
  | .grammar => "There is a syntax error:"
  | .overflow => "Stack error:"
  | .underflow => "Stack error:"

end ErrorKind

/-- An error of a program, with its place in the source. -/
structure ProgramError where
  kind : ErrorKind
  reason : String
  position : Source.Position := {}
  path : String := ""
deriving DecidableEq, Repr

namespace ProgramError

/-- The last name of a path: what stands after its last slash. -/
def lastName (path : String) : String :=
  String.ofList (path.toList.reverse.takeWhile (· != '/')).reverse

/-- The name of the program file. -/
def fileName (e : ProgramError) : String := lastName e.path

/-- The report of an error: a headline, the reason with its place, and the place alone. -/
def report (e : ProgramError) : String :=
  s!"{e.kind.headline}\n" ++
  s!"\t'{e.reason}' at line {e.position.line} column {e.position.column} in {e.fileName}\n" ++
  s!"\t{e.path} {e.position.line}:{e.position.column}\n"

end ProgramError

/-- The kind of report that a failure gets. -/
def Failure.kind : Failure → ErrorKind
  | .overflow => .overflow
  | .underflow => .underflow
  | _ => .uncaught

/-- The error of a failure at a statement of the program at a path. -/
def Failure.located (f : Failure) (position : Source.Position) (path : String) : ProgramError :=
  { kind := f.kind, reason := f.message, position, path }

/-- The error of a text that violates the grammar. -/
def Source.SyntaxFault.located (f : Source.SyntaxFault) (position : Source.Position)
    (path : String) : ProgramError :=
  { kind := .grammar, reason := f.message, position, path }

end TapeLang

import TapeLang.Text.Quoted

/-!
Failures of the operating system, with the numbers and words it gives them. A failure that concerns
a path shows it in quotes.
-/
namespace TapeLang.Host

inductive OsError where
  | inputOutput
  | notFound (path : String)
  | notDirectory (path : String)
  | isDirectory (path : String)
  | nameTooLong (path : String)
  | addressUnavailable
  | unreachable
  | connectionRefused
  | unknownHost
deriving DecidableEq, Repr

namespace OsError

def number : OsError → Int
  | .inputOutput => 5
  | .notFound _ => 2
  | .notDirectory _ => 20
  | .isDirectory _ => 21
  | .nameTooLong _ => 36
  | .addressUnavailable => 99
  | .unreachable => 101
  | .connectionRefused => 111
  | .unknownHost => -2

def words : OsError → String
  | .inputOutput => "Input/output error"
  | .notFound _ => "No such file or directory"
  | .notDirectory _ => "Not a directory"
  | .isDirectory _ => "Is a directory"
  | .nameTooLong _ => "File name too long"
  | .addressUnavailable => "Cannot assign requested address"
  | .unreachable => "Network is unreachable"
  | .connectionRefused => "Connection refused"
  | .unknownHost => "Name or service not known"

/-- The path that a failure concerns. -/
def path? : OsError → Option String
  | .notFound path | .notDirectory path | .isDirectory path | .nameTooLong path => some path
  | _ => none

def message (e : OsError) : String :=
  let start := s!"[Errno {e.number}] {e.words}"
  match e.path? with
  | some path => start ++ ": " ++ Text.quotedString path
  | none => start

end OsError
end TapeLang.Host

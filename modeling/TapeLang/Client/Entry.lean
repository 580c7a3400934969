import TapeLang.Client.Shell
import TapeLang.Text.Blank
import TapeLang.Text.Words

/-!
Command lines. A line is typed at the prompt of a debugger, or given to it once and for all when it is
started. Either way it is split into words, and the first word is the name of a command. A line that has
no words to it is passed on as two words of its own: a marker, and what is wrong with the line.
-/
namespace TapeLang

open Client (Report Shown Verb)
open Shell (Mishap Outcome)

/-- The ways in which a debugger gets a line. -/
inductive Entry where
  | prompt
  | oneShot
deriving DecidableEq, Repr

namespace Entry

/-- What a line asks for. -/
inductive Resolution where
  | nothing
  | unreadable (reason : Text)
  | unknown (name : Text)
  | command (verb : Verb) (arguments : List Text)
deriving DecidableEq, Repr

/-- The word that marks a line without words. -/
def marker : Text := .ofString "#parse-error"

/-- The words of a line, or the marker and what is wrong with it. -/
def words (line : Text) : List Text :=
  match Text.Words.split line with
  | .ok words => words
  | .error fault => [marker, .ofString fault.message]

/-- The part of a line that is split. -/
def content : Entry → Text → Text
  | .prompt, line => line.trim Text.isBlank
  | .oneShot, line => line

/-- What is told of a line without words, given the words after the marker. -/
def complaint : Entry → Text → List Text → Text
  | .prompt, line, arguments => arguments.getLast?.getD line
  | .oneShot, _, arguments => List.intercalate [0x20] arguments

/-- The first word of a line. -/
def name (entry : Entry) (line : Text) : Text := (words (entry.content line)).headD []

/-- What a line asks for. -/
def resolve (entry : Entry) (line : Text) : Resolution :=
  match words (entry.content line) with
  | [] => .nothing
  | name :: arguments =>
    if name = marker then .unreadable (entry.complaint (entry.content line) arguments)
    else
      match Verb.ofName? name with
      | none => .unknown name
      | some verb => .command verb arguments

/-- What comes of a line in the end. -/
inductive Ending where
  | status (code : Int)
  /-- the debugger ends -/
  | exits (code : Int)
  | raises (mishap : Mishap)
deriving DecidableEq, Repr

/-- What is still written when a command is done, and what comes of its line. -/
def conclude (entry : Entry) (line : Text) : Outcome → Shown × Ending
  | .returned code => ({}, .status code)
  | .left =>
    match entry with
    | .prompt => ({}, .exits 0)
    | .oneShot => ({}, .status 0)
  | .raised mishap =>
    match entry with
    | .prompt =>
      ({ out := Report.line (.ofString "Command '" ++ entry.name line ++
          .ofString s!"' failed: {mishap.message}") }, .status 1)
    | .oneShot => ({}, .raises mishap)

end Entry

namespace Shell

/-- A line is entered. While a command is at work nothing can be. -/
def enter (s : Shell) (entry : Entry) (line : Text) : Shell :=
  if s.busy then s
  else
    match entry.resolve line with
    | .nothing => s.finish (.returned 0)
    | .unreadable reason => s.report (.unreadable reason)
    | .unknown name => s.report (.unknown name)
    | .command verb arguments => { s with outcome := none }.begin verb arguments

inductive Input where
  | enter (entry : Entry) (line : Text)
  | event (event : Event)
deriving DecidableEq, Repr

def accept (s : Shell) : Input → Shell
  | .enter entry line => s.enter entry line
  | .event event => s.happen event

/-- Lines and events, one after the other. -/
def run (s : Shell) (inputs : List Input) : Shell := inputs.foldl accept s

end Shell
end TapeLang

import TapeLang.Host.OsError
import TapeLang.Text.Utf8

/-!
Files. A file tree maps the names from the working directory down to directories and to the bytes of
files. An open file is a handle with one offset that reading and writing share: a write replaces the
byte at the offset or extends the file by one byte at its end, and reading at the end gives nothing
and moves nothing. The tree counts how often each handle was closed.
-/
namespace TapeLang.Host

/-- The names on the way from the working directory to a file. -/
abbrev Location := List String

inductive Node where
  | directory
  | file (content : Array UInt8)
deriving DecidableEq, Repr

/-- An open file. -/
structure Handle where
  location : Location
  offset : Nat := 0
  closings : Nat := 0
deriving DecidableEq, Repr

/-- Why a path cannot be opened. -/
inductive OpenFault where
  | os (error : OsError)
  /-- the path holds a null character -/
  | embeddedNull
deriving DecidableEq, Repr

def OpenFault.message : OpenFault → String
  | .os error => error.message
  | .embeddedNull => "embedded null byte"

structure Files where
  nodes : List (Location × Node) := []
  handles : Array Handle := #[]
deriving DecidableEq, Repr

namespace Files

/-- What stands at a location. The working directory itself is always there. -/
def node? (f : Files) (location : Location) : Option Node :=
  if location = [] then some .directory
  else (f.nodes.find? (·.1 == location)).map (·.2)

/-- Puts a node at a location. -/
def setNode (f : Files) (location : Location) (node : Node) : Files :=
  if f.nodes.any (·.1 == location) then
    { f with nodes := f.nodes.map fun (place, old) => (place, if place = location then node else old) }
  else { f with nodes := f.nodes ++ [(location, node)] }

/-! ## Paths -/

/-- The most bytes of a name and of a path. -/
def nameLimit : Nat := 255
def pathLimit : Nat := 4095

/-- The names of a path, and whether a slash follows the last of them. -/
def names (path : String) : List String × Bool :=
  let pieces := path.splitOn "/"
  let bare := (pieces.reverse.dropWhile (· == "")).reverse
  (bare, bare.length < pieces.length)

/-- Follows the names of a path from a location; all but the last must be directories. -/
def follow (f : Files) (path : String) (start : Location) : List String → Except OsError Location
  | [] => .ok start
  | name :: rest =>
    if name = "" ∨ name = "." then follow f path start rest
    else if name = ".." then follow f path start.dropLast rest
    else if (Text.Utf8.encodeString name).length > nameLimit then .error (.nameTooLong path)
    else
      let next := start ++ [name]
      match rest, f.node? next with
      | [], _ => .ok next
      | _, some .directory => follow f path next rest
      | _, some (.file _) => .error (.notDirectory path)
      | _, none => .error (.notFound path)

/-- The location of a path, and whether a slash follows its last name. Outside the working directory
nothing is known but the root itself. -/
def locate (f : Files) (path : String) : Except OpenFault (Location × Bool) :=
  if '\x00' ∈ path.toList then .error .embeddedNull
  else if path = "" then .error (.os (.notFound path))
  else if (Text.Utf8.encodeString path).length > pathLimit then .error (.os (.nameTooLong path))
  else
    match names path with
    | ([], _) => .ok ([], false)
    | ("" :: rest, _) =>
      if rest.all (fun name => name = "" ∨ name = "." ∨ name = "..") then .ok ([], false)
      else .error (.os (.notFound path))
    | (names, slash) =>
      match follow f path [] names with
      | .ok location => .ok (location, slash)
      | .error error => .error (.os error)

/-! ## Opening, reading and writing -/

/-- Opens a file for reading and writing at offset zero, creating it if needed. No file can be opened
by a path that ends in a slash. -/
def openShared (f : Files) (path : String) : Except OpenFault (Files × Nat) :=
  match f.locate path with
  | .error fault => .error fault
  | .ok (_, true) => .error (.os (.isDirectory path))
  | .ok (location, false) =>
    let opened (f : Files) : Files × Nat :=
      ({ f with handles := f.handles.push { location } }, f.handles.size)
    match f.node? location with
    | some .directory => .error (.os (.isDirectory path))
    | some (.file _) => .ok (opened f)
    | none => .ok (opened (f.setNode location (.file #[])))

/-- All bytes of the file at a path. -/
def readAll (f : Files) (path : String) : Except OpenFault (List UInt8) :=
  match f.locate path with
  | .error fault => .error fault
  | .ok (location, slash) =>
    match f.node? location with
    | some .directory => .error (.os (.isDirectory path))
    | none => .error (.os (.notFound path))
    | some (.file content) =>
      if slash then .error (.os (.notDirectory path)) else .ok content.toList

/-- The bytes of a file, if the path names one. -/
def content? (f : Files) (path : String) : Option (List UInt8) := (f.readAll path).toOption

/-- The bytes behind a handle. -/
def contentOf (f : Files) (handle : Handle) : Array UInt8 :=
  match f.node? handle.location with
  | some (.file content) => content
  | _ => #[]

/-- Reads the byte at the offset of a handle. -/
def readByte (f : Files) (id : Nat) : Option UInt8 × Files :=
  match f.handles[id]? with
  | none => (none, f)
  | some handle =>
    match (f.contentOf handle)[handle.offset]? with
    | none => (none, f)
    | some byte =>
      (some byte,
        { f with handles := f.handles.setIfInBounds id { handle with offset := handle.offset + 1 } })

/-- Writes a byte at an offset of a content. -/
def overwrite (content : Array UInt8) (offset : Nat) (byte : UInt8) : Array UInt8 :=
  if offset < content.size then content.setIfInBounds offset byte else content.push byte

/-- Writes a byte at the offset of a handle. -/
def writeByte (f : Files) (id : Nat) (byte : UInt8) : Files :=
  match f.handles[id]? with
  | none => f
  | some handle =>
    let f := f.setNode handle.location (.file (overwrite (f.contentOf handle) handle.offset byte))
    { f with handles := f.handles.setIfInBounds id { handle with offset := handle.offset + 1 } }

/-- Closes a handle. -/
def close (f : Files) (id : Nat) : Files :=
  { f with handles := f.handles.modify id fun handle =>
      { handle with closings := handle.closings + 1 } }

/-! ## Setting a tree up -/

/-- Adds the directories on the way to a location, and the location itself as a directory. -/
def addDirectories (f : Files) (location : Location) : Files :=
  (List.range location.length).foldl (fun f k =>
    let place := location.take (k + 1)
    match f.node? place with
    | some _ => f
    | none => f.setNode place .directory) f

/-- The names of a path that say where to go. -/
def plainNames (path : String) : Location :=
  (names path).1.filter fun name => name ≠ "" ∧ name ≠ "."

/-- Adds a directory. -/
def addDirectory (f : Files) (path : String) : Files := f.addDirectories (plainNames path)

/-- Adds a file and the directories on the way to it. -/
def addFile (f : Files) (path : String) (content : List UInt8) : Files :=
  let location := plainNames path
  (f.addDirectories location.dropLast).setNode location (.file content.toArray)

end Files
end TapeLang.Host

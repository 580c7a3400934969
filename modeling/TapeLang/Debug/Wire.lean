import TapeLang.Debug.Message
import TapeLang.Json.Printer
import TapeLang.Json.Reader

/-!
Protocol lines. A message is the compact form of a JSON object on a line of its own, all ASCII. A
line is read in two steps: it must be UTF-8 and a JSON object, and then its fields make a message.
Fields are read leniently, by what can be made of a value: an integer also from a number or a
literal in a text, a text from any value. A line that cannot be read is a protocol error; only an
integer of too many digits and an infinite number where an integer belongs are faults of another
kind, since they have no reading at all.
-/
namespace TapeLang.Debug

/-- Why a line is no protocol message. -/
inductive ProtocolError where
  | encoding (fault : Text.Utf8.Fault)
  | json (what : Json.Violation) (line : Text) (left : Nat)
  | notObject
  | unknownType (name : Text)
deriving DecidableEq, Repr

def ProtocolError.message : ProtocolError → String
  | .encoding fault => s!"invalid utf-8 in protocol line: {fault.message}"
  | .json what line left => s!"invalid json in protocol line: {what.located line left}"
  | .notObject => "protocol line is not a json object"
  | .unknownType name => s!"unknown server message type '{name.toString}'"

/-- A number that has no reading as an integer. -/
inductive NumberFault where
  | infinite
  | longInteger (digits : Nat)
deriving DecidableEq, Repr

def NumberFault.message : NumberFault → String
  | .infinite => "cannot convert float infinity to integer"
  | .longInteger digits => (Text.Numeral.Fault.tooLong digits).message

/-- Why a line gives no message. -/
inductive LineFault where
  | protocol (error : ProtocolError)
  | number (fault : NumberFault)
deriving DecidableEq, Repr

def LineFault.message : LineFault → String
  | .protocol error => error.message
  | .number fault => fault.message

/-! ## Writing -/

/-- The line of an object. -/
def encodeFields (fields : Json.Fields) : List UInt8 :=
  Text.Utf8.encode (Json.object fields).compact ++ [0xA]

/-- The line of a server message. -/
def ServerMessage.encode (m : ServerMessage) : List UInt8 := encodeFields m.fields

/-- The line of a command. -/
def Command.encode (c : Command) : List UInt8 := encodeFields c.fields

/-! ## Reading -/

/-- The object on a line of text. -/
def decodeText (line : Text) : Except LineFault Json.Fields :=
  match Json.read line with
  | .ok (.object fields) => .ok fields
  | .ok _ => .error (.protocol .notObject)
  | .error (.violation what left) => .error (.protocol (.json what line left))
  | .error (.longInteger digits) => .error (.number (.longInteger digits))

/-- The object on a line of bytes. -/
def decodeLine (line : List UInt8) : Except LineFault Json.Fields :=
  match Text.Utf8.decode line with
  | .ok text => decodeText text
  | .error fault => .error (.protocol (.encoding fault))

/-- The integer that can be made of a value. -/
def toInt : Json → Except NumberFault (Option Int)
  | .int n => .ok (some n)
  | .float x =>
    match Number.exact x with
    | .undefined => .ok none
    | .infinite _ => .error .infinite
    | .finite negative mantissa exponent _ =>
      .ok (some (Number.truncated negative mantissa exponent))
  | .text t => .ok (Text.Numeral.read t).toOption
  | _ => .ok none

/-- The integer of a field. -/
def intField (name : String) (fields : Json.Fields) : Except NumberFault (Option Int) :=
  match fields.get? (.ofString name) with
  | some value => toInt value
  | none => .ok none

/-- The text of a field; an absent or empty value gives the empty text. -/
def textField (name : String) (fields : Json.Fields) : Text :=
  match fields.get? (.ofString name) with
  | some value => if value.isEmpty then [] else value.plain
  | none => []

/-- The object of a field, empty where there is none. -/
def objectField (name : String) (fields : Json.Fields) : Json.Fields :=
  match fields.get? (.ofString name) with
  | some (.object inner) => inner
  | _ => []

/-- The bytes of a list field: what is no integer counts as zero. -/
def bytesField (name : String) (fields : Json.Fields) : Except NumberFault (List Int) :=
  match fields.get? (.ofString name) with
  | some (.array items) => items.mapM fun item => do
      return match ← toInt item with
        | some n => n % 256
        | none => 0
  | _ => .ok []

/-- The command that the fields of a line make. -/
def Command.ofFields (fields : Json.Fields) : Except NumberFault Command := do
  let cell ← intField "cell" fields
  let value ← intField "value" fields
  return { operation := textField "operation" fields, cell, value }

/-- The server message that the fields of a line make. -/
def ServerMessage.ofFields (fields : Json.Fields) : Except LineFault ServerMessage :=
  let type := textField "type" fields
  let checked {α : Type} : Except NumberFault α → Except LineFault α := Except.mapError .number
  if type = .ofString "metadata" then
    .ok (.metadata (textField "file_name" fields) (textField "file_path" fields)
      (textField "content" fields))
  else if type = .ofString "debug-state" then do
    let cursor ← checked (intField "cursor" fields)
    let tape ← checked (bytesField "tape" fields)
    return .state
      { statement := objectField "statement" fields, position := objectField "position" fields,
        cursor := cursor.getD 0, tape }
  else if type = .ofString "exit" then do
    return .exit ((← checked (intField "code" fields)).getD 0)
  else if type = stdOut ∨ type = stdErr then .ok (.stream type (textField "value" fields))
  else .error (.protocol (.unknownType type))

/-- The command on a line. -/
def Command.decode (line : List UInt8) : Except LineFault Command :=
  match decodeLine line with
  | .ok fields => (Command.ofFields fields).mapError .number
  | .error fault => .error fault

/-- The server message on a line. -/
def ServerMessage.decode (line : List UInt8) : Except LineFault ServerMessage :=
  match decodeLine line with
  | .ok fields => ServerMessage.ofFields fields
  | .error fault => .error fault

end TapeLang.Debug

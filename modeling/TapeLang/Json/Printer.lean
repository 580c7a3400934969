import TapeLang.Json.Value
import TapeLang.Number.Shortest
import TapeLang.Text.Quoted

/-!
Written forms of JSON values. Both are ASCII: other code points are escaped, those past the basic
plane as surrogate pairs. The compact form has no white space and keeps the order of the fields; the
indented form has one item a line and sorts fields by name. The plain form is how a value reads in
the middle of a sentence, with words for the constants and quotes around texts inside lists.
-/
namespace TapeLang.Json

/-! ## Texts and numbers -/

/-- The escape of a 16-bit unit. -/
def unitEscape (n : Nat) : Text := .ofString "\\u" ++ Text.hex 4 n

/-- One code point inside a written text. -/
def escapePoint (n : Nat) : Text :=
  if n = 0x22 then [0x5C, 0x22]
  else if n = 0x5C then [0x5C, 0x5C]
  else if n = 0xA then [0x5C, 0x6E]
  else if n = 0xD then [0x5C, 0x72]
  else if n = 0x9 then [0x5C, 0x74]
  else if n = 0xC then [0x5C, 0x66]
  else if n = 0x8 then [0x5C, 0x62]
  else if 0x20 ≤ n ∧ n ≤ 0x7E then [n]
  else if n < 0x10000 then unitEscape n
  else unitEscape (0xD800 + (n - 0x10000) / 1024) ++ unitEscape (0xDC00 + (n - 0x10000) % 1024)

/-- A written text. -/
def writeText (t : Text) : Text := [0x22] ++ t.flatMap escapePoint ++ [0x22]

/-- The number texts of the written forms. -/
def numberTexts : Number.Special := ⟨"NaN", "Infinity"⟩

/-- The number texts of the plain form. -/
def plainTexts : Number.Special := ⟨"nan", "inf"⟩

/-- A written integer. -/
def writeInt (n : Int) : Text := .ofString (toString n)

/-- A written fractional number. -/
def writeFloat (special : Number.Special) (x : Float) : Text :=
  .ofString ((Number.exact x).text special)

/-! ## The compact form -/

mutual

/-- The compact form of a value. -/
def compact : Json → Text
  | .null => .ofString "null"
  | .bool true => .ofString "true"
  | .bool false => .ofString "false"
  | .int n => writeInt n
  | .float x => writeFloat numberTexts x
  | .text t => writeText t
  | .array items => [0x5B] ++ compactItems items ++ [0x5D]
  | .object fields => [0x7B] ++ compactFields fields ++ [0x7D]

/-- The items of an array, with commas between them. -/
def compactItems : List Json → Text
  | [] => []
  | [item] => compact item
  | item :: rest => compact item ++ [0x2C] ++ compactItems rest

/-- The fields of an object, with commas between them. -/
def compactFields : List (Text × Json) → Text
  | [] => []
  | [(name, value)] => writeText name ++ [0x3A] ++ compact value
  | (name, value) :: rest =>
    writeText name ++ [0x3A] ++ compact value ++ [0x2C] ++ compactFields rest

end

/-! ## The indented form -/

/-- A new line at a depth. -/
def newLine (depth : Nat) : Text := 0xA :: List.replicate (2 * depth) 0x20

/-- Places a field among fields sorted by name, before those of an equal or greater name. -/
def insertField (name : Text) (value : Text) : List (Text × Text) → List (Text × Text)
  | [] => [(name, value)]
  | (other, old) :: rest =>
    if name ≤ other then (name, value) :: (other, old) :: rest
    else (other, old) :: insertField name value rest

/-- Pieces one a line between two brackets. -/
def bracketed (opening closing : Nat) (depth : Nat) (pieces : List Text) : Text :=
  if pieces.isEmpty then [opening, closing]
  else
    let lines := pieces.map (newLine (depth + 1) ++ ·)
    [opening] ++ (lines.intersperse [0x2C]).flatten ++ newLine depth ++ [closing]

mutual

/-- The indented form of a value at a depth. -/
def indented (depth : Nat) : Json → Text
  | .null => .ofString "null"
  | .bool true => .ofString "true"
  | .bool false => .ofString "false"
  | .int n => writeInt n
  | .float x => writeFloat numberTexts x
  | .text t => writeText t
  | .array items => bracketed 0x5B 0x5D depth (indentedItems depth items)
  | .object fields =>
    bracketed 0x7B 0x7D depth <|
      (indentedFields depth fields).map fun (name, value) =>
        writeText name ++ .ofString ": " ++ value

/-- The items of an array, each one level deeper. -/
def indentedItems (depth : Nat) : List Json → List Text
  | [] => []
  | item :: rest => indented (depth + 1) item :: indentedItems depth rest

/-- The fields of an object, each one level deeper, sorted by name. -/
def indentedFields (depth : Nat) : List (Text × Json) → List (Text × Text)
  | [] => []
  | (name, value) :: rest =>
    insertField name (indented (depth + 1) value) (indentedFields depth rest)

end

/-! ## The plain form -/

mutual

/-- A value inside a list or a record of the plain form. -/
def plainPart : Json → Text
  | .null => .ofString "None"
  | .bool true => .ofString "True"
  | .bool false => .ofString "False"
  | .int n => writeInt n
  | .float x => writeFloat plainTexts x
  | .text t => Text.quoted t
  | .array items => [0x5B] ++ plainItems items ++ [0x5D]
  | .object fields => [0x7B] ++ plainFields fields ++ [0x7D]

def plainItems : List Json → Text
  | [] => []
  | [item] => plainPart item
  | item :: rest => plainPart item ++ .ofString ", " ++ plainItems rest

def plainFields : List (Text × Json) → Text
  | [] => []
  | [(name, value)] => Text.quoted name ++ .ofString ": " ++ plainPart value
  | (name, value) :: rest =>
    Text.quoted name ++ .ofString ": " ++ plainPart value ++ .ofString ", " ++ plainFields rest

end

/-- The plain form of a value: a text on its own has no quotes. -/
def plain : Json → Text
  | .text t => t
  | value => plainPart value

end TapeLang.Json

import TapeLang.Text.Basic

/-!
JSON values. Integers are unbounded and kept apart from fractional numbers; the fields of an object
keep the order in which they were first written.
-/
namespace TapeLang

inductive Json where
  | null
  | bool (value : Bool)
  | int (value : Int)
  | float (value : Float)
  | text (value : Text)
  | array (items : List Json)
  | object (fields : List (Text × Json))
deriving Inhabited

namespace Json

/-- The fields of an object, in order. -/
abbrev Fields := List (Text × Json)

/-- The value of a string. -/
def ofString (s : String) : Json := .text (.ofString s)

/-- An object whose field names are strings. -/
def ofPairs (fields : List (String × Json)) : Json :=
  .object (fields.map fun (name, value) => (.ofString name, value))

/-- Sets a field: a new one goes to the end, a present one keeps its place. -/
def Fields.put (name : Text) (value : Json) : Fields → Fields
  | [] => [(name, value)]
  | (other, old) :: rest =>
    if other = name then (name, value) :: rest else (other, old) :: Fields.put name value rest

/-- The value of a field. -/
def Fields.get? (name : Text) : Fields → Option Json
  | [] => none
  | (other, value) :: rest => if other = name then some value else Fields.get? name rest

/-- The value of a field of an object. -/
def field? (name : String) : Json → Option Json
  | .object fields => Fields.get? (.ofString name) fields
  | _ => none

/-- Whether a value counts as absent where a text is asked for: nothing, false, zero or empty. -/
def isEmpty : Json → Bool
  | .null => true
  | .bool value => !value
  | .int value => value == 0
  | .float value => value == 0
  | .text value => value.isEmpty
  | .array items => items.isEmpty
  | .object fields => fields.isEmpty

/-- A field that was set is found. -/
theorem Fields.get?_put (name : Text) (value : Json) (fields : Fields) :
    Fields.get? name (Fields.put name value fields) = some value := by
  induction fields with
  | nil => simp [put, get?]
  | cons field rest ih =>
    obtain ⟨other, old⟩ := field
    by_cases same : other = name
    · simp [put, get?, same]
    · simp [put, get?, same, ih]

/-- Setting a field leaves the others alone. -/
theorem Fields.get?_put_of_ne {name other : Text} (value : Json) (fields : Fields)
    (distinct : other ≠ name) :
    Fields.get? other (Fields.put name value fields) = Fields.get? other fields := by
  induction fields with
  | nil => simp [put, get?, distinct.symm]
  | cons field rest ih =>
    obtain ⟨label, old⟩ := field
    by_cases same : label = name
    · simp [put, get?, same, distinct.symm]
    · simp [put, get?, same, ih]

end Json
end TapeLang

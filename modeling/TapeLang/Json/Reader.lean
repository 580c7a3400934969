import TapeLang.Json.Value
import TapeLang.Number.Double
import TapeLang.Text.Hex
import TapeLang.Text.Numeral

/-!
Reading JSON. Besides the standard forms the words NaN, Infinity and -Infinity stand for numbers,
and an escape may spell half of a surrogate pair. White space is the space, the tab and the two line
breaks. A refusal knows how much of the text was left where it arose, and so its line and column; an
integer of too many digits is refused without a place.
-/
namespace TapeLang.Json

/-! ## Refusals -/

/-- What a text that is no JSON violates. -/
inductive Violation where
  | value
  | name
  | colon
  | comma
  | unterminated
  | control
  | escape
  | unicodeEscape
  | extra
  | byteOrderMark
deriving DecidableEq, Repr

def Violation.message : Violation → String
  | .value => "Expecting value"
  | .name => "Expecting property name enclosed in double quotes"
  | .colon => "Expecting ':' delimiter"
  | .comma => "Expecting ',' delimiter"
  | .unterminated => "Unterminated string starting at"
  | .control => "Invalid control character at"
  | .escape => "Invalid \\escape"
  | .unicodeEscape => "Invalid \\uXXXX escape"
  | .extra => "Extra data"
  | .byteOrderMark => "Unexpected UTF-8 BOM (decode using utf-8-sig)"

/-- A refused text: a violation with the number of code points from it to the end, or an integer of
too many digits. -/
inductive Refusal where
  | violation (what : Violation) (left : Nat)
  | longInteger (digits : Nat)
deriving DecidableEq, Repr

/-- The place of an offset in a text: line and column, counted from one. -/
def place (t : Text) (offset : Nat) : Nat × Nat :=
  let before := t.take offset
  (1 + before.count 0xA, 1 + (before.reverse.takeWhile (· ≠ 0xA)).length)

/-- The message of a violation in a text. -/
def Violation.located (what : Violation) (t : Text) (left : Nat) : String :=
  let offset := t.length - left
  let (line, column) := place t offset
  s!"{what.message}: line {line} column {column} (char {offset})"

/-! ## Texts -/

def isSpace (n : Nat) : Bool := n == 0x20 || n == 0x9 || n == 0xA || n == 0xD

def skipSpace (t : Text) : Text := t.dropWhile isSpace

/-- The value of four hexadecimal digits. -/
def unit? (a b c d : Nat) : Option Nat := do
  let a ← Text.hexValue? a
  let b ← Text.hexValue? b
  let c ← Text.hexValue? c
  let d ← Text.hexValue? d
  return ((a * 16 + b) * 16 + c) * 16 + d

/-- The code point of an escape of one letter. -/
def letterEscape? (n : Nat) : Option Nat :=
  if n = 0x22 ∨ n = 0x5C ∨ n = 0x2F then some n
  else if n = 0x62 then some 0x8
  else if n = 0x66 then some 0xC
  else if n = 0x6E then some 0xA
  else if n = 0x72 then some 0xD
  else if n = 0x74 then some 0x9
  else none

/-- The code point of a surrogate pair. -/
def joinPair (high low : Nat) : Nat := 0x10000 + (high - 0xD800) * 1024 + (low - 0xDC00)

/-- Reads what follows a backslash: the code point that the escape spells and how many code points
spell it. Half of a surrogate pair is joined with a matching half right after it, unless the text
ends there. `opening` is the number of code points from the opening quote to the end. -/
def readEscape (opening : Nat) : Text → Except Refusal (Nat × Nat)
  | [] => .error (.violation .unterminated opening)
  | 0x75 :: after =>
    match after with
    | a :: b :: c :: d :: next :: tail =>
      match unit? a b c d, next :: tail with
      | none, _ => .error (.violation .unicodeEscape (after.length + 1))
      | some high, 0x5C :: 0x75 :: e :: f :: g :: h :: far =>
        if 0xD800 ≤ high ∧ high < 0xDC00 ∧ !far.isEmpty then
          match unit? e f g h with
          | none => .error (.violation .unicodeEscape (far.length + 5))
          | some low =>
            if 0xDC00 ≤ low ∧ low < 0xE000 then .ok (joinPair high low, 11) else .ok (high, 5)
        else .ok (high, 5)
      | some high, _ => .ok (high, 5)
    | _ => .error (.violation .unicodeEscape (after.length + 1))
  | letter :: after =>
    match letterEscape? letter with
    | some point => .ok (point, 1)
    | none => .error (.violation .escape (after.length + 2))

/-- Reads a text up to its closing quote, after skipping what an escape took. `opening` is the number
of code points from the opening quote to the end, and `done` holds what was read, last first. -/
def readText (opening : Nat) (done : List Nat) (skip : Nat) : Text → Except Refusal (Text × Text)
  | [] => .error (.violation .unterminated opening)
  | n :: rest =>
    match skip with
    | skip + 1 => readText opening done skip rest
    | 0 =>
      if n = 0x22 then .ok (done.reverse, rest)
      else if n = 0x5C then
        match readEscape opening rest with
        | .error refusal => .error refusal
        | .ok (point, used) => readText opening (point :: done) used rest
      else if n ≤ 0x1F then .error (.violation .control (rest.length + 1))
      else readText opening (n :: done) 0 rest

/-! ## Numbers -/

def isDigit (n : Nat) : Bool := 0x30 ≤ n && n ≤ 0x39

/-- The value of a run of digits. -/
def digitsValue (digits : Text) : Nat := digits.foldl (fun value n => value * 10 + (n - 0x30)) 0

/-- Splits off the digits at the front. -/
def spanDigits (t : Text) : Text × Text := (t.takeWhile isDigit, t.dropWhile isDigit)

/-- Splits off a point with at least one digit after it. -/
def splitFraction : Text → Option Text × Text
  | 0x2E :: rest =>
    let (digits, after) := spanDigits rest
    if digits.isEmpty then (none, 0x2E :: rest) else (some digits, after)
  | t => (none, t)

/-- Splits off an exponent with at least one digit. -/
def splitExponent : Text → Option Int × Text
  | mark :: rest =>
    if mark = 0x65 ∨ mark = 0x45 then
      let (negative, unsigned) := match rest with
        | 0x2B :: after => (false, after)
        | 0x2D :: after => (true, after)
        | after => (false, after)
      let (digits, after) := spanDigits unsigned
      if digits.isEmpty then (none, mark :: rest)
      else (some (Text.Numeral.signed negative (digitsValue digits)), after)
    else (none, mark :: rest)
  | [] => (none, [])

/-- The number of a magnitude without a sign, and what follows it. -/
def readMagnitude (whole : Text) (negative : Bool) (rest : Text) : Except Refusal (Json × Text) :=
  let (fraction, rest) := splitFraction rest
  let (exponent, rest) := splitExponent rest
  match fraction, exponent with
  | none, none =>
    if whole.length > Text.Numeral.digitLimit then .error (.longInteger whole.length)
    else .ok (.int (Text.Numeral.signed negative (digitsValue whole)), rest)
  | fraction, exponent =>
    let fraction := fraction.getD []
    let digits := whole ++ fraction
    let power := exponent.getD 0 - fraction.length
    .ok (.float (Number.ofDecimal negative (digitsValue digits) digits.length power), rest)

/-- The number at the front of a text. -/
def readNumber (t : Text) : Except Refusal (Json × Text) :=
  let (negative, unsigned) := match t with
    | 0x2D :: rest => (true, rest)
    | rest => (false, rest)
  match unsigned with
  | 0x30 :: rest => readMagnitude [0x30] negative rest
  | n :: rest =>
    if isDigit n then
      let (digits, after) := spanDigits (n :: rest)
      readMagnitude digits negative after
    else .error (.violation .value t.length)
  | [] => .error (.violation .value t.length)

/-! ## Values -/

/-- The constants that are spelled as words. -/
def words : List (Text × Json) :=
  [(.ofString "null", .null), (.ofString "true", .bool true), (.ofString "false", .bool false),
    (.ofString "NaN", .float (0 / 0)), (.ofString "Infinity", .float (1 / 0)),
    (.ofString "-Infinity", .float (-1 / 0))]

/-- The constant at the front of a text, with what follows it. -/
def readWord? (t : Text) : Option (Json × Text) :=
  words.findSome? fun (word, value) =>
    if word.isPrefixOf t then some (value, t.drop word.length) else none

mutual

/-- Reads the value at the front of a text. The first argument bounds the number of values and
brackets that are read. -/
def readValue : Nat → Text → Except Refusal (Json × Text)
  | 0, t => .error (.violation .value t.length)
  | fuel + 1, t =>
    match t with
    | 0x22 :: rest => (readText t.length [] 0 rest).map fun (read, after) => (.text read, after)
    | 0x7B :: rest =>
      match skipSpace rest with
      | 0x7D :: after => .ok (.object [], after)
      | inner => readFields fuel [] inner
    | 0x5B :: rest =>
      match skipSpace rest with
      | 0x5D :: after => .ok (.array [], after)
      | inner => readItems fuel [] inner
    | t =>
      match readWord? t with
      | some found => .ok found
      | none => readNumber t

/-- Reads the items of an array from the next one on. `done` holds those before it, last first. -/
def readItems : Nat → List Json → Text → Except Refusal (Json × Text)
  | 0, _, t => .error (.violation .value t.length)
  | fuel + 1, done, t =>
    match readValue fuel t with
    | .error refusal => .error refusal
    | .ok (item, after) =>
      match skipSpace after with
      | 0x5D :: rest => .ok (.array (item :: done).reverse, rest)
      | 0x2C :: rest => readItems fuel (item :: done) (skipSpace rest)
      | rest => .error (.violation .comma rest.length)

/-- Reads the fields of an object from the next one on. -/
def readFields : Nat → Fields → Text → Except Refusal (Json × Text)
  | 0, _, t => .error (.violation .value t.length)
  | fuel + 1, done, t =>
    match t with
    | 0x22 :: quoted =>
      match readText t.length [] 0 quoted with
      | .error refusal => .error refusal
      | .ok (name, after) =>
        match skipSpace after with
        | 0x3A :: rest =>
          match readValue fuel (skipSpace rest) with
          | .error refusal => .error refusal
          | .ok (value, after) =>
            match skipSpace after with
            | 0x7D :: rest => .ok (.object (done.put name value), rest)
            | 0x2C :: rest => readFields fuel (done.put name value) (skipSpace rest)
            | rest => .error (.violation .comma rest.length)
        | rest => .error (.violation .colon rest.length)
    | t => .error (.violation .name t.length)

end

/-- Reads a whole text. Each step of the bound takes at least half a code point, so the bound is
never what stops the reading. -/
def read (t : Text) : Except Refusal Json :=
  match t with
  | 0xFEFF :: _ => .error (.violation .byteOrderMark t.length)
  | t =>
    match readValue (2 * t.length + 2) (skipSpace t) with
    | .error refusal => .error refusal
    | .ok (value, after) =>
      match skipSpace after with
      | [] => .ok value
      | rest => .error (.violation .extra rest.length)

end TapeLang.Json

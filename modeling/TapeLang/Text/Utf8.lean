import TapeLang.Text.Hex

/-!
UTF-8. Decoding reads one byte at a time and refuses a byte sequence at the first byte that no
continuation can save: overlong forms, surrogate halves and code points past the last one are
ruled out by narrowing the range of the second byte. A refusal names the bytes of the character
that was begun. Encoding refuses the halves of surrogate pairs.
-/
namespace TapeLang.Text.Utf8

/-! ## Decoding -/

/-- Why a byte sequence is no text. -/
inductive Reason where
  | invalidStart
  | invalidContinuation
  | unexpectedEnd
deriving DecidableEq, Repr

def Reason.message : Reason → String
  | .invalidStart => "invalid start byte"
  | .invalidContinuation => "invalid continuation byte"
  | .unexpectedEnd => "unexpected end of data"

/-- A refused byte sequence: where the refused character starts, how many bytes of it were read
and which byte it starts with. -/
structure Fault where
  reason : Reason
  start : Nat
  count : Nat
  first : Nat
deriving DecidableEq, Repr

def Fault.message (f : Fault) : String :=
  let span :=
    if f.count = 1 then s!"byte 0x" ++ toString (hex 2 f.first) ++ s!" in position {f.start}"
    else s!"bytes in position {f.start}-{f.start + f.count - 1}"
  s!"'utf-8' codec can't decode {span}: " ++ f.reason.message

/-- What a decoder knows between two bytes. Inside a character it keeps how many bytes are left,
the bits read so far, the range of the next byte, and the first byte and number of the bytes read. -/
inductive State where
  | between
  | inside (left value low high first seen : Nat)
deriving DecidableEq, Repr

/-- The state after the first byte of a character of more than one byte. -/
def opened (b : Nat) : Option State :=
  if b < 0xC2 then none
  else if b < 0xE0 then some (.inside 1 (b - 0xC0) 0x80 0xBF b 1)
  else if b = 0xE0 then some (.inside 2 0 0xA0 0xBF b 1)
  else if b = 0xED then some (.inside 2 13 0x80 0x9F b 1)
  else if b < 0xF0 then some (.inside 2 (b - 0xE0) 0x80 0xBF b 1)
  else if b = 0xF0 then some (.inside 3 0 0x90 0xBF b 1)
  else if b < 0xF4 then some (.inside 3 (b - 0xF0) 0x80 0xBF b 1)
  else if b = 0xF4 then some (.inside 3 4 0x80 0x8F b 1)
  else none

/-- Decodes the rest of a byte sequence, `position` bytes of which were read. -/
def decodeFrom (done : List Nat) (state : State) (position : Nat) :
    List UInt8 → Except Fault Text
  | [] =>
    match state with
    | .between => .ok done.reverse
    | .inside _ _ _ _ first seen => .error ⟨.unexpectedEnd, position - seen, seen, first⟩
  | byte :: rest =>
    let b := byte.toNat
    match state with
    | .between =>
      if b < 0x80 then decodeFrom (b :: done) .between (position + 1) rest
      else
        match opened b with
        | some next => decodeFrom done next (position + 1) rest
        | none => .error ⟨.invalidStart, position, 1, b⟩
    | .inside left value low high first seen =>
      if low ≤ b ∧ b ≤ high then
        let value := value * 64 + (b - 0x80)
        if left = 1 then decodeFrom (value :: done) .between (position + 1) rest
        else decodeFrom done (.inside (left - 1) value 0x80 0xBF first (seen + 1)) (position + 1) rest
      else .error ⟨.invalidContinuation, position - seen, seen, first⟩

/-- The text that a byte sequence spells. -/
def decode (bytes : List UInt8) : Except Fault Text := decodeFrom [] .between 0 bytes

/-! ## Encoding -/

/-- The bytes of one code point. -/
def encodePoint (n : Nat) : List UInt8 :=
  if n < 0x80 then [UInt8.ofNat n]
  else if n < 0x800 then [UInt8.ofNat (0xC0 + n / 64), UInt8.ofNat (0x80 + n % 64)]
  else if n < 0x10000 then
    [UInt8.ofNat (0xE0 + n / 4096), UInt8.ofNat (0x80 + n / 64 % 64), UInt8.ofNat (0x80 + n % 64)]
  else
    [UInt8.ofNat (0xF0 + n / 262144), UInt8.ofNat (0x80 + n / 4096 % 64),
      UInt8.ofNat (0x80 + n / 64 % 64), UInt8.ofNat (0x80 + n % 64)]

/-- The bytes of a text of scalar values. -/
def encode (t : Text) : List UInt8 := t.flatMap encodePoint

/-- The bytes of a string. -/
def encodeString (s : String) : List UInt8 := encode (ofString s)

end TapeLang.Text.Utf8

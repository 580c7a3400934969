import TapeLang.Text.Quoted
import TapeLang.Text.Utf8

/-!
Encodings that may refuse a text. UTF-8 has no form for the halves of surrogate pairs, and Latin-1
none for a code point past its 256 letters; a refusal names the first run of code points without a
form. Latin-1 gives every byte a code point, so decoding it never fails.
-/
namespace TapeLang.Text

inductive Encoding where
  | utf8
  | latin1
deriving DecidableEq, Repr

/-- Whether an encoding has a form for a code point. -/
def Encoding.covers : Encoding → Nat → Bool
  | .utf8, n => !isSurrogate n
  | .latin1, n => n < 256

/-- A run of code points that an encoding has no form for. -/
structure Unencodable where
  encoding : Encoding
  first : Nat
  start : Nat
  count : Nat
deriving DecidableEq, Repr

def Unencodable.message (u : Unencodable) : String :=
  let span :=
    if u.count = 1 then
      "character '" ++ toString (escapedPoint u.first) ++ s!"' in position {u.start}"
    else s!"characters in position {u.start}-{u.start + u.count - 1}"
  match u.encoding with
  | .utf8 => s!"'utf-8' codec can't encode {span}: surrogates not allowed"
  | .latin1 => s!"'latin-1' codec can't encode {span}: ordinal not in range(256)"

/-- The first run of code points that an encoding has no form for. -/
def Encoding.gap? (e : Encoding) (t : Text) : Option Unencodable :=
  let before := t.takeWhile e.covers
  match t.dropWhile e.covers with
  | [] => none
  | first :: rest =>
    some ⟨e, first, before.length, 1 + (rest.takeWhile fun n => !e.covers n).length⟩

/-- The bytes of a text, unless it holds a code point without a form. -/
def Encoding.encode (e : Encoding) (t : Text) : Except Unencodable (List UInt8) :=
  match e.gap? t with
  | some gap => .error gap
  | none => .ok <| match e with
    | .utf8 => Utf8.encode t
    | .latin1 => t.map UInt8.ofNat

/-- The text whose code points are the bytes. -/
def ofLatin1 (bytes : List UInt8) : Text := bytes.map UInt8.toNat

/-- No gap means that every code point has a form. -/
theorem Encoding.gap?_eq_none_iff {e : Encoding} {t : Text} :
    e.gap? t = none ↔ ∀ n ∈ t, e.covers n = true := by
  induction t with
  | nil => simp [gap?]
  | cons n rest ih =>
    by_cases covered : e.covers n = true
    · have same : (e.gap? (n :: rest) = none) ↔ (e.gap? rest = none) := by
        simp only [gap?, List.dropWhile_cons, covered, if_true]
        split <;> simp
      simp [same, ih, covered]
    · simp [gap?, covered]

/-- Bytes survive the way through Latin-1. -/
theorem encode_latin1_ofLatin1 (bytes : List UInt8) :
    Encoding.latin1.encode (ofLatin1 bytes) = .ok bytes := by
  have clear : Encoding.latin1.gap? (ofLatin1 bytes) = none := by
    rw [Encoding.gap?_eq_none_iff]
    intro n mem
    simp only [ofLatin1, List.mem_map] at mem
    obtain ⟨b, _, rfl⟩ := mem
    simpa [Encoding.covers] using b.toNat_lt
  rw [Encoding.encode, clear]
  simp [ofLatin1, Function.comp_def]

end TapeLang.Text

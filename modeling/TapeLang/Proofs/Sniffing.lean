import TapeLang.MediaType.Sniff
import TapeLang.Proofs.Content

/-!
What is sniffed of text. The first bytes of a body are judged as a text of their own, so of a body that
is text as a whole they are refused exactly when they end inside a character
(`Text.Utf8.decode_take_iff`). Then a body that nothing else recognises is called binary (`sniff_text`).
-/
namespace TapeLang

namespace Text.Utf8

/-- The bytes of a character after its first. -/
def Continues (b : UInt8) : Prop := 0x80 ≤ b.toNat ∧ b.toNat ≤ 0xBF

instance (b : UInt8) : Decidable (Continues b) :=
  inferInstanceAs (Decidable (0x80 ≤ b.toNat ∧ b.toNat ≤ 0xBF))

/-- No character begins with a byte that others go on with. -/
theorem opened_of_continues {b : UInt8} (continues : Continues b) : opened b.toNat = none := by
  have upper := continues.2
  rw [opened, if_pos (by omega)]

/-- Of bytes that decode, those at the beginning decode exactly if the next one does not go on with a
character. -/
theorem decodeFrom_prefix_iff {first rest : List UInt8} {done : List Nat} {state : State}
    {position : Nat} {text : Text} (promising : state.Promising)
    (decoded : decodeFrom done state position (first ++ rest) = .ok text) :
    (∃ read, decodeFrom done state position first = .ok read) ↔ ∀ b ∈ rest.head?, ¬ Continues b := by
  have between : State.between.Promising := trivial
  induction first generalizing done state position with
  | nil =>
    cases state with
    | between =>
      refine iff_of_true ⟨_, rfl⟩ ?_
      cases rest with
      | nil => simp
      | cons b rest =>
        rintro _ ⟨⟩ continues
        have lower := continues.1
        simp [decodeFrom, opened_of_continues continues, show ¬ b.toNat < 0x80 by omega] at decoded
    | inside left value low high start seen =>
      refine iff_of_false (by simp [decodeFrom]) fun ends => ?_
      cases rest with
      | nil => simp [decodeFrom] at decoded
      | cons b rest =>
        have inRange : low ≤ b.toNat ∧ b.toNat ≤ high := by
          by_contra outside
          simp [decodeFrom, outside] at decoded
        exact ends b rfl ⟨promising.1.trans inRange.1, inRange.2.trans promising.2.1⟩
  | cons byte first ih =>
    rw [List.cons_append] at decoded
    unfold decodeFrom at decoded ⊢
    cases state with
    | between =>
      dsimp only at decoded ⊢
      split at decoded
      next small => simpa [small] using ih between decoded
      next large =>
        split at decoded
        next next begins => simpa [large, begins] using ih (promising_opened begins) decoded
        next => simp at decoded
    | inside left value low high start seen =>
      dsimp only at decoded ⊢
      split at decoded
      next inRange =>
        split at decoded
        next last => simpa [inRange, last] using ih between decoded
        next goesOn => simpa [inRange, goesOn] using ih (promising.more inRange goesOn) decoded
      next => simp at decoded

/-- The first bytes of a text are text on their own exactly if they do not end inside a character. -/
theorem decode_take_iff {bytes : List UInt8} {text : Text} (decoded : decode bytes = .ok text)
    (count : Nat) :
    (∃ read, decode (bytes.take count) = .ok read) ↔ ∀ b ∈ bytes[count]?, ¬ Continues b := by
  have between : State.between.Promising := trivial
  rw [← List.take_append_drop count bytes] at decoded
  rw [← List.head?_drop]
  exact decodeFrom_prefix_iff between decoded

end Text.Utf8

namespace MediaType

/-- The type of a body that is recognised by its first bytes, or as JSON. -/
def recognised? (body : List UInt8) : Option String :=
  let head := body.take sniffLength
  let stripped := head.dropWhile isLayout
  let lowered := stripped.map lowerByte
  let opensJson := stripped.head? == some 0x7B || stripped.head? == some 0x5B
  if pageMarkers.any (·.isPrefixOf lowered) then some html
  else if xmlMarker.isPrefixOf lowered then some xml
  else
    match signatures.find? fun signature => signature.1.isPrefixOf head with
    | some (_, type) => some type
    | none => if opensJson && isJson body then some json else none

/-- The type of a body that is not recognised. -/
def judged (body : List UInt8) : String :=
  if (body.take sniffLength).any isBinaryControl then binary
  else
    match Text.Utf8.decode (body.take sniffLength) with
    | .ok _ => plainText
    | .error _ => binary

theorem sniff_eq (body : List UInt8) : sniff body = (recognised? body).getD (judged body) := by
  unfold sniff recognised? judged
  dsimp only
  generalize (signatures.find? fun signature => signature.1.isPrefixOf (body.take sniffLength)) = found
  split
  · rfl
  · split
    · rfl
    · cases found with
      | some => rfl
      | none => dsimp only; split <;> rfl

/-- Nothing is recognised as binary. -/
theorem recognised_ne_binary {body : List UInt8} {type : String} (known : recognised? body = some type) :
    type ≠ binary := by
  have types : ∀ signature ∈ signatures, signature.2 ≠ binary := by decide
  unfold recognised? at known
  dsimp only at known
  split at known
  · exact Option.some.inj known ▸ by decide
  · split at known
    · exact Option.some.inj known ▸ by decide
    · split at known
      next found => exact Option.some.inj known ▸ types _ (List.mem_of_find?_eq_some found)
      next =>
        split at known
        · exact Option.some.inj known ▸ by decide
        · simp at known

/-- Text without control characters is called binary exactly if nothing recognises it and the bytes
looked at end inside a character. -/
theorem sniff_text {body : List UInt8} {text : Text} (decoded : Text.Utf8.decode body = .ok text)
    (plain : ∀ b ∈ body.take sniffLength, isBinaryControl b = false) :
    sniff body = binary ↔
      recognised? body = none ∧ ∃ b, body[sniffLength]? = some b ∧ Text.Utf8.Continues b := by
  have cut := Text.Utf8.decode_take_iff decoded sniffLength
  have noControl : (body.take sniffLength).any isBinaryControl = false :=
    List.any_eq_false.mpr fun b member => by simp [plain b member]
  rw [sniff_eq]
  cases known : recognised? body with
  | some type => simpa using recognised_ne_binary known
  | none =>
    simp only [Option.getD_none, true_and, judged, noControl]
    cases read : Text.Utf8.decode (body.take sniffLength) with
    | ok head =>
      have ends := cut.mp ⟨head, read⟩
      have text : plainText ≠ binary := by decide
      exact iff_of_false text fun ⟨b, next, continues⟩ => ends b next continues
    | error fault =>
      have inside : ¬ ∀ b ∈ body[sniffLength]?, ¬ Text.Utf8.Continues b :=
        mt cut.mpr (by simp [read])
      exact iff_of_true rfl (by simpa using inside)

/-- A character may begin where the first bytes end. -/
theorem sniff_text_ends : ∃ body text, Text.Utf8.decode body = .ok text ∧
    (∀ b ∈ body.take sniffLength, isBinaryControl b = false) ∧ sniffLength < body.length ∧
    sniff body ≠ binary := by
  let body : List UInt8 := List.replicate 512 0x61 ++ [0xC3, 0xA9]
  let text : Text := List.replicate 512 0x61 ++ [0xE9]
  have decoded : Text.Utf8.decode body = .ok text := by decide +kernel
  have plain : ∀ b ∈ body.take sniffLength, isBinaryControl b = false := by decide +kernel
  refine ⟨body, text, decoded, plain, by decide +kernel, fun called => ?_⟩
  obtain ⟨-, b, next, continues⟩ := (sniff_text decoded plain).mp called
  have first : body[sniffLength]? = some 0xC3 := by decide +kernel
  rw [first, Option.some.injEq] at next
  exact absurd continues (next ▸ by decide)

/-- A letter of two bytes of which the first is the last that is looked at. -/
theorem sniff_text_cut : ∃ body text, Text.Utf8.decode body = .ok text ∧
    (∀ b ∈ body.take sniffLength, isBinaryControl b = false) ∧ sniff body = binary := by
  refine ⟨List.replicate 511 0x61 ++ [0xC3, 0xA9], List.replicate 511 0x61 ++ [0xE9], ?_, ?_, ?_⟩ <;>
    decide +kernel

end MediaType
end TapeLang

import Mathlib.Tactic.SplitIfs
import TapeLang.Launch
import TapeLang.Proofs.Wire

/-!
The text of a program file. What UTF-8 decodes to holds no half of a surrogate pair
(`Text.Utf8.scalar_of_decode`), and neither does the text of a file (`Launch.scalar_of_content`), so a
client that is told the text reads it as it was (`Launch.sound_introduction`).
-/
namespace TapeLang

namespace Text.Utf8

/-- No surrogate lies from the least to the greatest of some code points, and all are in range. -/
def Spares (least greatest : Nat) : Prop :=
  greatest < 0xD800 ∨ 0xE000 ≤ least ∧ greatest < 0x110000

/-- What a character that was begun may become is no half of a surrogate pair. Each byte that is left
adds six bits; the next one is from the range given. -/
def State.Promising : State → Prop
  | .between => True
  | .inside left value low high _ _ =>
    0x80 ≤ low ∧ high ≤ 0xBF ∧
      (left = 1 ∧ Spares (value * 64 + (low - 0x80)) (value * 64 + (high - 0x80)) ∨
        left = 2 ∧ Spares ((value * 64 + (low - 0x80)) * 64) ((value * 64 + (high - 0x80)) * 64 + 63) ∨
        left = 3 ∧
          Spares ((value * 64 + (low - 0x80)) * 4096) ((value * 64 + (high - 0x80)) * 4096 + 4095))

theorem promising_opened {b : Nat} {state : State} (begins : opened b = some state) :
    state.Promising := by
  unfold opened at begins
  split_ifs at begins
  all_goals
    obtain rfl := Option.some.inj begins
    simp only [State.Promising, Spares, true_and]
    omega

/-- Another byte of a character that goes on. -/
theorem State.Promising.more {left value low high first seen b : Nat}
    (promising : (State.inside left value low high first seen).Promising)
    (inRange : low ≤ b ∧ b ≤ high) (goesOn : left ≠ 1) :
    (State.inside (left - 1) (value * 64 + (b - 0x80)) 0x80 0xBF first (seen + 1)).Promising := by
  simp only [State.Promising, Spares] at promising ⊢
  obtain ⟨least, greatest, ⟨rfl, -⟩ | ⟨rfl, sound⟩ | ⟨rfl, sound⟩⟩ := promising
  · exact absurd rfl goesOn
  · refine ⟨Nat.le_refl _, Nat.le_refl _, .inl ⟨rfl, ?_⟩⟩
    omega
  · refine ⟨Nat.le_refl _, Nat.le_refl _, .inr (.inl ⟨rfl, ?_⟩)⟩
    omega

/-- The last byte of a character. -/
theorem State.Promising.last {value low high first seen b : Nat}
    (promising : (State.inside 1 value low high first seen).Promising)
    (inRange : low ≤ b ∧ b ≤ high) : (value * 64 + (b - 0x80)).isValidChar := by
  simp only [State.Promising, Spares] at promising
  simp only [Nat.isValidChar]
  omega

/-- What is decoded holds no half of a surrogate pair. -/
theorem scalar_of_decodeFrom {bytes : List UInt8} {done : List Nat} {state : State} {position : Nat}
    {text : Text} (scalar : IsScalar done) (promising : state.Promising)
    (decoded : decodeFrom done state position bytes = .ok text) : text.IsScalar := by
  have between : State.between.Promising := trivial
  have scalar_cons {n : Nat} {done : List Nat} (valid : n.isValidChar) (scalar : IsScalar done) :
      IsScalar (n :: done) := by
    intro m member
    rcases List.mem_cons.mp member with rfl | earlier
    · exact valid
    · exact scalar m earlier
  induction bytes generalizing done state position with
  | nil =>
    cases state with
    | between =>
      obtain rfl := Except.ok.inj decoded
      intro n member
      exact scalar n (List.mem_reverse.mp member)
    | inside => simp [decodeFrom] at decoded
  | cons byte rest ih =>
    unfold decodeFrom at decoded
    cases state with
    | between =>
      dsimp only at decoded
      split at decoded
      next small => exact ih (scalar_cons (.inl (by omega)) scalar) between decoded
      next =>
        split at decoded
        next next begins => exact ih scalar (promising_opened begins) decoded
        next => simp at decoded
    | inside left value low high first seen =>
      dsimp only at decoded
      split at decoded
      next inRange =>
        split at decoded
        next last =>
          subst last
          exact ih (scalar_cons (promising.last inRange) scalar) between decoded
        next goesOn => exact ih scalar (promising.more inRange goesOn) decoded
      next => simp at decoded

theorem scalar_of_decode {bytes : List UInt8} {text : Text} (decoded : decode bytes = .ok text) :
    text.IsScalar := by
  have between : State.between.Promising := trivial
  exact scalar_of_decodeFrom (by simp [IsScalar]) between decoded

end Text.Utf8

namespace Launch

/-- Line breaks are no halves of surrogate pairs. -/
theorem scalar_unifyBreaks {text : Text} (scalar : text.IsScalar) : (unifyBreaks text).IsScalar := by
  fun_induction unifyBreaks text with
  | case1 => exact scalar
  | case2 rest ih =>
    have later := ih fun n member => scalar n (by simp [member])
    intro n member
    rcases List.mem_cons.mp member with rfl | inside
    · exact .inl (by decide)
    · exact later n inside
  | case3 first rest _ ih =>
    have later := ih fun n member => scalar n (by simp [member])
    intro n member
    rcases List.mem_cons.mp member with rfl | inside
    · split
      · exact .inl (by decide)
      · exact scalar first (by simp)
    · exact later n inside

/-- The text of a file holds no half of a surrogate pair. -/
theorem scalar_of_content {files : Host.Files} {path : String} {text : Text}
    (read : content files path = .ok text) : text.IsScalar := by
  unfold content at read
  split at read
  · simp at read
  · simp at read
  next bytes _ =>
    split at read
    · simp at read
    next decoded =>
      obtain rfl := Except.ok.inj read
      exact scalar_unifyBreaks (Text.Utf8.scalar_of_decode decoded)

theorem length_toString (text : Text) : text.toString.toList.length = text.length := by
  simp [Text.toString]

/-- A client is told first what is run. -/
def introduction (path : String) (text : Text) : Debug.ServerMessage :=
  .metadata (.ofString (ProgramError.lastName path)) (.ofString path) text

theorem sound_introduction {text : Text} (scalar : text.IsScalar) (path : String) :
    (introduction path text).Sound :=
  ⟨Text.ofString_isScalar _, Text.ofString_isScalar _, scalar⟩

end Launch
end TapeLang

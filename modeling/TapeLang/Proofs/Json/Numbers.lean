import Mathlib.Algebra.Group.Nat.Defs
import TapeLang.Proofs.Json.Texts

/-!
Written integers. An integer is written as its decimal digits, with a minus sign in front if it is
negative; read back where no number goes on, the digits give the same integer, unless there are more
than an integer may have (`readNumber_writeInt`).
-/
namespace TapeLang.Json

/-- Whether an integer has no more digits than one may have that is read. -/
def IsShort (n : Int) : Prop := n.natAbs < 10 ^ Text.Numeral.digitLimit

/-- A number of at most so many digits is short. -/
theorem isShort_of_natAbs_lt {n : Int} (digits : Nat) (few : digits ≤ Text.Numeral.digitLimit)
    (small : n.natAbs < 10 ^ digits) : IsShort n :=
  Nat.lt_of_lt_of_le small (Nat.pow_le_pow_right (by decide) few)

/-- The text does not go on with a number. -/
def EndsNumber (after : Text) : Prop :=
  ∀ n ∈ after.head?, isDigit n = false ∧ n ≠ 0x2E ∧ n ≠ 0x65 ∧ n ≠ 0x45

/-- The digits of a number, most significant first. -/
def digits (n : Nat) : Text := (Nat.toDigits 10 n).map Char.toNat

variable {n : Nat} {after : Text}

theorem writeInt_ofNat (n : Nat) : writeInt n = digits n := by
  have same : toString (n : Int) = n.repr := rfl
  rw [writeInt, same, Text.ofString, Nat.toList_repr, digits]

theorem writeInt_negSucc (n : Nat) : writeInt (.negSucc n) = 0x2D :: digits (n + 1) := by
  have same : toString (Int.negSucc n) = "-" ++ (n + 1).repr := rfl
  rw [writeInt, same, Text.ofString, String.toList_append, Nat.toList_repr]
  rfl

theorem isDigit_of_mem_digits {d : Nat} (member : d ∈ digits n) : isDigit d = true := by
  obtain ⟨c, inside, rfl⟩ := List.mem_map.mp member
  have digit := Nat.isDigit_of_mem_toDigits (by decide) (by decide) inside
  simp only [Char.isDigit, Bool.and_eq_true, decide_eq_true_eq] at digit
  simp only [isDigit, Bool.and_eq_true, decide_eq_true_eq]
  exact digit

theorem digits_ne_nil (n : Nat) : digits n ≠ [] := by
  simp [digits, Nat.toDigits_ne_nil]

theorem digitsValue_digits (n : Nat) : digitsValue (digits n) = n := by
  have read := Nat.ofDigitChars_toDigits (b := 10) (n := n) (by decide) (by decide)
  rw [digitsValue, digits, List.foldl_map]
  rw [Nat.ofDigitChars_eq_foldl] at read
  simp only [Nat.mul_comm 10] at read
  exact read

theorem digits_of_lt (below : n < 10) : digits n = [0x30 + n] := by
  rw [digits, Nat.toDigits_of_lt_base below]
  have each : ∀ d < 10, (Nat.digitChar d).toNat = 0x30 + d := by decide
  simp [each n below]

theorem digits_of_le (many : 10 ≤ n) : digits n = digits (n / 10) ++ digits (n % 10) := by
  have last : digits (n % 10) = [(n % 10).digitChar.toNat] := by
    rw [digits, Nat.toDigits_of_lt_base (Nat.mod_lt n (by decide)), List.map_singleton]
  rw [last, digits, digits, Nat.toDigits_of_base_le (by decide) many, List.map_append,
    List.map_singleton]

/-- No number but zero starts with a zero. -/
theorem head_digits (positive : 0 < n) : ∃ d rest, digits n = d :: rest ∧ d ≠ 0x30 := by
  induction n using Nat.strongRecOn with
  | ind n ih =>
    by_cases below : n < 10
    · exact ⟨0x30 + n, [], digits_of_lt below, by omega⟩
    · obtain ⟨d, rest, same, other⟩ := ih (n / 10) (by omega) (by omega)
      exact ⟨d, rest ++ digits (n % 10), by rw [digits_of_le (by omega), same]; rfl, other⟩

theorem length_digits (short : IsShort n) : (digits n).length ≤ Text.Numeral.digitLimit := by
  rw [digits, List.length_map]
  exact (Nat.length_toDigits_le_iff (by decide) (by decide)).mpr short

theorem printable_of_isDigit {d : Nat} (digit : isDigit d = true) : IsPrintable d := by
  simp only [isDigit, Bool.and_eq_true, decide_eq_true_eq] at digit
  unfold IsPrintable
  omega

theorem printable_writeInt (n : Int) : ∀ d ∈ writeInt n, IsPrintable d := by
  cases n with
  | ofNat n =>
    intro d member
    rw [Int.ofNat_eq_natCast, writeInt_ofNat] at member
    exact printable_of_isDigit (isDigit_of_mem_digits member)
  | negSucc n =>
    intro d member
    rw [writeInt_negSucc] at member
    rcases List.mem_cons.mp member with rfl | digit
    · decide
    · exact printable_of_isDigit (isDigit_of_mem_digits digit)

/-! ## Reading -/

theorem spanDigits_digits (ends : EndsNumber after) (n : Nat) :
    spanDigits (digits n ++ after) = (digits n, after) := by
  have all : ∀ d ∈ digits n, isDigit d = true := fun d => isDigit_of_mem_digits
  have none : after.takeWhile isDigit = [] ∧ after.dropWhile isDigit = after := by
    cases after with
    | nil => exact ⟨rfl, rfl⟩
    | cons first rest =>
      have other := (ends first rfl).1
      exact ⟨by simp [other], by simp [other]⟩
  rw [spanDigits, List.takeWhile_append_of_pos all, List.dropWhile_append_of_pos all, none.1, none.2,
    List.append_nil]

/-- Where no number goes on, the digits make an integer. -/
theorem readMagnitude_digits (ends : EndsNumber after) (whole : Text) (negative : Bool)
    (short : whole.length ≤ Text.Numeral.digitLimit) :
    readMagnitude whole negative after =
      .ok (.int (Text.Numeral.signed negative (digitsValue whole)), after) := by
  have fraction : splitFraction after = (none, after) := by
    cases after with
    | nil => rfl
    | cons first rest =>
      have other := (ends first rfl).2.1
      unfold splitFraction
      split
      next same => exact absurd (List.cons.inj same).1 other
      next => rfl
  have exponent : splitExponent after = (none, after) := by
    cases after with
    | nil => rfl
    | cons first rest =>
      obtain ⟨-, -, small, large⟩ := ends first rfl
      simp only [splitExponent, small, large, or_self, ↓reduceIte]
  rw [readMagnitude, fraction]
  dsimp only
  rw [exponent]
  simp only [gt_iff_lt, Nat.not_lt.mpr short, ↓reduceIte]

/-- The digits of a number are read, with a minus sign in front or without one. -/
theorem readNumber_digits (ends : EndsNumber after) (short : IsShort n) :
    readNumber (digits n ++ after) = .ok (.int n, after) ∧
      readNumber (0x2D :: (digits n ++ after)) = .ok (.int (-n), after) := by
  have whole (negative : Bool) := readMagnitude_digits ends (digits n) negative (length_digits short)
  rw [digitsValue_digits] at whole
  cases n with
  | zero => exact ⟨whole false, whole true⟩
  | succ n =>
    obtain ⟨d, rest, same, other⟩ := head_digits (Nat.succ_pos n)
    have digit : isDigit d = true := isDigit_of_mem_digits (by rw [same]; exact List.mem_cons_self)
    have sign : d ≠ 0x2D := by
      rintro rfl
      simp [isDigit] at digit
    have span := spanDigits_digits ends (n + 1)
    rw [same, List.cons_append] at span ⊢
    rw [same] at whole
    constructor
    · unfold readNumber
      split
      next negative unsigned split =>
        split at split
        next minus => exact absurd (List.cons.inj minus).1 sign
        next =>
          obtain ⟨rfl, rfl⟩ := Prod.mk.inj split
          simp only [digit, span, whole, ↓reduceIte]
          rfl
    · simp only [readNumber, digit, span, whole, ↓reduceIte]
      rfl

/-- A written integer is read back. -/
theorem readNumber_writeInt {n : Int} (ends : EndsNumber after) (short : IsShort n) :
    readNumber (writeInt n ++ after) = .ok (.int n, after) := by
  cases n with
  | ofNat n =>
    rw [Int.ofNat_eq_natCast, writeInt_ofNat]
    exact (readNumber_digits ends short).1
  | negSucc n =>
    rw [writeInt_negSucc]
    exact (@readNumber_digits (n + 1) after ends short).2

/-- What a written integer starts with is a digit or a minus sign before one. -/
theorem head_writeInt (n : Int) : ∃ first rest, writeInt n = first :: rest ∧
    (isDigit first = true ∨ first = 0x2D ∧ ∃ d rest', rest = d :: rest' ∧ isDigit d = true) := by
  cases n with
  | ofNat n =>
    obtain ⟨d, rest, same⟩ := List.exists_cons_of_ne_nil (digits_ne_nil n)
    have digit : isDigit d = true := isDigit_of_mem_digits (by rw [same]; exact List.mem_cons_self)
    exact ⟨d, rest, by rw [Int.ofNat_eq_natCast, writeInt_ofNat, same], .inl digit⟩
  | negSucc n =>
    obtain ⟨d, rest, same⟩ := List.exists_cons_of_ne_nil (digits_ne_nil (n + 1))
    have digit : isDigit d = true := isDigit_of_mem_digits (by rw [same]; exact List.mem_cons_self)
    exact ⟨0x2D, digits (n + 1), writeInt_negSucc n, .inr ⟨rfl, d, rest, same, digit⟩⟩

end TapeLang.Json

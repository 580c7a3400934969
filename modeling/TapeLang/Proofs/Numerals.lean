import Mathlib.Tactic.SplitIfs
import TapeLang.Text.Numeral

/-!
Which runs of digits are numbers. The scanner of programs takes digits of every kind as the digits of a
number, but a literal holds decimal digits only, and at most `digitLimit` of them. A run is a literal
exactly when both hold, and then its value is positional (`read_eq_ok_iff`).
-/
namespace TapeLang.Text.Numeral

/-- The number that decimal digits spell, after `value`. -/
def positional (value : Nat) (t : Text) : Nat :=
  t.foldl (fun value n => value * 10 + (decimalValue? n).getD 0) value

/-- Whether every code point is a decimal digit. -/
def IsDecimal (t : Text) : Prop := ∀ n ∈ t, (decimalValue? n).isSome

/-! ## Single digits -/

/-- The zero of a decimal digit. -/
theorem exists_zero_of_decimalValue? (found : decimalValue? n = some v) :
    ∃ start ∈ decimalZeros, n = start + v ∧ v < 10 := by
  have bound := decimalValue?_lt found
  simp only [decimalValue?, Option.map_eq_some_iff] at found
  obtain ⟨start, hit, rfl⟩ := found
  have inRun := List.find?_some hit
  simp only [Bool.and_eq_true, decide_eq_true_eq] at inRun
  exact ⟨start, List.mem_of_find?_eq_some hit, by omega, bound⟩

/-- A range that no white space lies in. -/
theorem not_isBlank_of_apart (apart : ∀ r ∈ blanks, last < r.1 ∨ r.2 < first)
    (inside : first ≤ n ∧ n ≤ last) : isBlank n = false := by
  rw [Bool.eq_false_iff]
  intro blank
  obtain ⟨r, member, bounds⟩ := Ranges.exists_mem_of_has blank
  have := apart r member
  omega

theorem zeros_apart_blanks :
    ∀ start ∈ decimalZeros, ∀ r ∈ blanks, start + 9 < r.1 ∨ r.2 < start := by decide

theorem digits_apart_blanks :
    ∀ digits ∈ otherDigits, ∀ r ∈ blanks, digits.2 < r.1 ∨ r.2 < digits.1 := by decide

theorem zeros_past_ascii : ∀ start ∈ decimalZeros, start < 0x7F → start = 0x30 := by decide

theorem digits_past_ascii : ∀ digits ∈ otherDigits, 0x7F ≤ digits.1 := by decide

/-- A decimal digit has the ASCII digit of the same value as its form. -/
theorem asciiForm_decimal (found : decimalValue? n = some v) : asciiForm n = 0x30 + v := by
  obtain ⟨start, member, rfl, bound⟩ := exists_zero_of_decimalValue? found
  unfold asciiForm
  split_ifs with ascii blank
  · have : start = 0x30 := zeros_past_ascii start member (by omega)
    omega
  · rw [not_isBlank_of_apart (zeros_apart_blanks start member) (by omega)] at blank
    simp at blank
  · simp [found]

/-- A digit of another kind has no form. -/
theorem asciiForm_other (digit : isDigit n = true) (none : decimalValue? n = none) :
    asciiForm n = 0x3F := by
  have other : otherDigits.has n = true := by simpa [isDigit, none] using digit
  obtain ⟨digits, member, bounds⟩ := Ranges.exists_mem_of_has other
  have past := digits_past_ascii digits member
  unfold asciiForm
  rw [if_neg (by omega), if_neg (by simp [not_isBlank_of_apart (digits_apart_blanks digits member) bounds])]
  simp [none]

/-- The form of a digit: neither a sign nor white space. -/
theorem asciiForm_digit (digit : isDigit n = true) :
    (0x30 ≤ asciiForm n ∧ asciiForm n ≤ 0x39) ∨ asciiForm n = 0x3F := by
  cases found : decimalValue? n with
  | none => exact .inr (asciiForm_other digit found)
  | some v =>
    have bound := decimalValue?_lt found
    rw [asciiForm_decimal found]
    omega

theorem asciiForm_ne_underscore (found : decimalValue? n = some v) : asciiForm n ≠ 0x5F := by
  have bound := decimalValue?_lt found
  rw [asciiForm_decimal found]
  omega

/-! ## Runs of digits -/

theorem digitIn_form (found : decimalValue? n = some v) : digitIn 10 (asciiForm n) = some v := by
  have bound := decimalValue?_lt found
  have ascii : 0x30 + v ≤ 0x39 := by omega
  simp [asciiForm_decimal found, digitIn, ascii, bound]

/-- Decimal digits are read to their end. -/
theorem readDigits_decimal (decimal : IsDecimal t) (begins : gap = true → t ≠ []) :
    readDigits 10 value count gap (t.map asciiForm) =
      some (positional value t, count + t.length, []) := by
  induction t generalizing value count gap with
  | nil =>
    have noGap : gap = false := by simpa using begins
    simp [readDigits, positional, noGap]
  | cons n rest ih =>
    obtain ⟨v, found⟩ := Option.isSome_iff_exists.mp (decimal n (by simp))
    have later : IsDecimal rest := fun m member => decimal m (by simp [member])
    rw [List.map_cons, readDigits, if_neg (asciiForm_ne_underscore found), digitIn_form found]
    simp only
    rw [ih later (by simp)]
    simp [positional, found]
    omega

/-- A digit of another kind is where the reading stops. -/
theorem readDigits_other (digits : ∀ n ∈ t, isDigit n = true) (other : ¬ IsDecimal t) :
    readDigits 10 value count gap (t.map asciiForm) = none ∨
      ∃ value' count' rest, readDigits 10 value count gap (t.map asciiForm) =
        some (value', count', 0x3F :: rest) := by
  induction t generalizing value count gap with
  | nil => simp [IsDecimal] at other
  | cons n rest ih =>
    have digit := digits n (by simp)
    cases found : decimalValue? n with
    | none =>
      rw [List.map_cons, readDigits, asciiForm_other digit found]
      cases gap <;> simp [digitIn]
    | some v =>
      rw [List.map_cons, readDigits, if_neg (asciiForm_ne_underscore found), digitIn_form found]
      simp only
      refine ih (fun m member => digits m (by simp [member])) fun decimal => other ?_
      intro m member
      rcases List.mem_cons.mp member with rfl | later
      · simp [found]
      · exact decimal m later

/-! ## Literals -/

/-- Digits carry no sign, and no white space is around them. -/
theorem read_digits (digits : ∀ n ∈ t, isDigit n = true) :
    read t = (readForm (.malformed 10 t) ⟨10, true, true⟩ (t.map asciiForm)).map (signed false) := by
  cases t with
  | nil => rfl
  | cons n rest =>
    have form := asciiForm_digit (digits n (by simp))
    have start : isAsciiBlank (asciiForm n) = false := by
      simp only [isAsciiBlank, Bool.or_eq_false_iff, Bool.and_eq_false_iff, decide_eq_false_iff_not,
        beq_eq_false_iff_ne]
      omega
    have unsigned : splitSign (asciiForm n :: rest.map asciiForm) =
        (false, asciiForm n :: rest.map asciiForm) := by
      unfold splitSign
      split
      next same => simp only [List.cons.injEq] at same; omega
      next same => simp only [List.cons.injEq] at same; omega
      next => rfl
    simp [read, start, unsigned]

theorem isDigit_of_isDecimal (decimal : IsDecimal t) : ∀ n ∈ t, isDigit n = true :=
  fun n member => by simp [isDigit, decimal n member]

/-- A run of decimal digits that is not too long is the number that it spells. -/
theorem read_decimal (nonempty : t ≠ []) (decimal : IsDecimal t) (short : t.length ≤ digitLimit) :
    read t = .ok (positional 0 t : Int) := by
  have length : t.length ≠ 0 := by simpa using nonempty
  rw [read_digits (isDigit_of_isDecimal decimal), readForm,
    readDigits_decimal decimal fun _ => nonempty]
  simp [Nat.not_lt.mpr short, length, signed, Except.map]

theorem read_tooLong (decimal : IsDecimal t) (long : digitLimit < t.length) :
    read t = .error (.tooLong t.length) := by
  have nonempty : t ≠ [] := by rintro rfl; simp at long
  rw [read_digits (isDigit_of_isDecimal decimal), readForm,
    readDigits_decimal decimal fun _ => nonempty]
  simp [long, Except.map]

/-- A run with a digit of another kind is refused. -/
theorem read_other (digits : ∀ n ∈ t, isDigit n = true) (other : ¬ IsDecimal t) :
    ∃ fault, read t = .error fault := by
  rw [read_digits digits, readForm]
  have stops : readDigits 10 0 0 true (t.map asciiForm) = none ∨ ∃ value count rest,
      readDigits 10 0 0 true (t.map asciiForm) = some (value, count, 0x3F :: rest) :=
    readDigits_other digits other
  rcases stops with none | ⟨value, count, rest, stopped⟩
  · exact ⟨_, by rw [none]; rfl⟩
  · rw [stopped]
    simp only
    split_ifs with long bad
    · exact ⟨_, rfl⟩
    · exact ⟨_, rfl⟩
    · simp [isAsciiBlank] at bad

/-- The runs of digits that are literals. -/
theorem read_eq_ok_iff (nonempty : t ≠ []) (digits : ∀ n ∈ t, isDigit n = true) :
    (∃ number, read t = .ok number) ↔ IsDecimal t ∧ t.length ≤ digitLimit := by
  constructor
  · rintro ⟨number, spelled⟩
    by_cases decimal : IsDecimal t
    · refine ⟨decimal, Nat.le_of_not_lt fun long => ?_⟩
      rw [read_tooLong decimal long] at spelled
      simp at spelled
    · obtain ⟨fault, refused⟩ := read_other digits decimal
      rw [refused] at spelled
      simp at spelled
  · rintro ⟨decimal, short⟩
    exact ⟨_, read_decimal nonempty decimal short⟩

end TapeLang.Text.Numeral

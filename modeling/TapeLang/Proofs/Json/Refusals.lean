import Mathlib.Tactic.SplitIfs
import TapeLang.Json.Reader

/-!
What the reader refuses without a place: an integer of too many digits. Reading goes through a text from
the left, so what is left after a value is an end of the text (`Reads`), and the digits that are too many
stand in the text one after the other (`longInteger_of_read`).
-/
namespace TapeLang.Json

open Text.Numeral (digitLimit)

/-- A text with a run of more digits than an integer may have. -/
def HasLongRun (count : Nat) (t : Text) : Prop :=
  digitLimit < count ∧ ∃ run, run <:+: t ∧ run.length = count ∧ ∀ n ∈ run, isDigit n = true

theorem HasLongRun.of_suffix (long : HasLongRun count after) (suffix : after <:+ t) :
    HasLongRun count t := by
  obtain ⟨many, run, inside, length, digits⟩ := long
  exact ⟨many, run, inside.trans suffix.isInfix, length, digits⟩

/-- What a reader makes of a text: an end of the text is left, or a run of digits in it is too long, or
the text is refused for something else. -/
def Reads {α : Type} (t : Text) : Except Refusal (α × Text) → Prop
  | .ok (_, after) => after <:+ t
  | .error (.longInteger count) => HasLongRun count t
  | .error (.violation _ _) => True

theorem Reads.of_suffix {result : Except Refusal (α × Text)} (reads : Reads after result)
    (suffix : after <:+ t) : Reads t result := by
  match result with
  | .ok (_, _) => exact List.IsSuffix.trans reads suffix
  | .error (.longInteger _) => exact HasLongRun.of_suffix reads suffix
  | .error (.violation _ _) => trivial

/-- A refusal does not depend on what would have been read. -/
theorem Reads.error (reads : Reads t (.error refusal : Except Refusal (α × Text))) :
    Reads t (.error refusal : Except Refusal (β × Text)) := by
  cases refusal <;> exact reads

theorem Reads.map_of_suffix {result : Except Refusal (α × Text)} {f : α → β}
    (reads : Reads after result) (suffix : after <:+ t) :
    Reads t (result.map fun (value, after) => (f value, after)) := by
  match result with
  | .ok (_, _) => exact List.IsSuffix.trans reads suffix
  | .error (.longInteger _) => exact HasLongRun.of_suffix reads suffix
  | .error (.violation _ _) => trivial

theorem skipSpace_suffix (t : Text) : skipSpace t <:+ t := List.dropWhile_suffix _

/-! ## Texts -/

theorem readEscape_places (opening : Nat) (t : Text) (count : Nat) :
    readEscape opening t ≠ .error (.longInteger count) := by
  fun_cases readEscape opening t <;> simp

theorem reads_readText (opening : Nat) (done : List Nat) (skip : Nat) (t : Text) :
    Reads t (readText opening done skip t) := by
  fun_induction readText opening done skip t with
  | case1 => trivial
  | case2 done n rest skip ih => exact ih.of_suffix (List.suffix_cons n rest)
  | case3 done rest => exact List.suffix_cons 0x22 rest
  | case4 done rest refusal refused =>
    cases refusal with
    | violation => trivial
    | longInteger count => exact absurd refused (readEscape_places opening rest count)
  | case5 done rest point used _ _ ih => exact ih.of_suffix (List.suffix_cons _ rest)
  | case6 => trivial
  | case7 done n rest _ _ _ ih => exact ih.of_suffix (List.suffix_cons n rest)

/-! ## Numbers -/

theorem spanDigits_suffix (t : Text) : (spanDigits t).2 <:+ t := List.dropWhile_suffix _

theorem splitFraction_suffix (t : Text) : (splitFraction t).2 <:+ t := by
  unfold splitFraction
  split
  next rest =>
    dsimp only
    split
    · exact List.suffix_rfl
    · exact (spanDigits_suffix rest).trans (List.suffix_cons _ rest)
  next => exact List.suffix_rfl

theorem splitExponent_suffix (t : Text) : (splitExponent t).2 <:+ t := by
  unfold splitExponent
  split
  next mark rest =>
    have unsigned : ∀ (negative : Bool) (digits : Text), digits <:+ rest →
        (if (spanDigits digits).1.isEmpty then (none, mark :: rest) else
          (some (Text.Numeral.signed negative (digitsValue (spanDigits digits).1)),
            (spanDigits digits).2)).2 <:+ mark :: rest := by
      intro negative digits inside
      split
      · exact List.suffix_rfl
      · exact ((spanDigits_suffix digits).trans inside).trans (List.suffix_cons mark rest)
    split
    · dsimp only
      split
      · exact unsigned false _ (List.suffix_cons _ _)
      · exact unsigned true _ (List.suffix_cons _ _)
      · exact unsigned false _ List.suffix_rfl
    · exact List.suffix_rfl
  next => exact List.suffix_rfl

/-- A number of the digits `whole`, which stand right before the rest. -/
theorem reads_readMagnitude (whole : Text) (negative : Bool) (rest : Text)
    (digits : ∀ n ∈ whole, isDigit n = true) :
    Reads (whole ++ rest) (readMagnitude whole negative rest) := by
  have left : (splitExponent (splitFraction rest).2).2 <:+ whole ++ rest :=
    ((splitExponent_suffix _).trans (splitFraction_suffix rest)).trans (List.suffix_append whole rest)
  unfold readMagnitude
  dsimp only
  split
  · split
    next long => exact ⟨long, whole, (List.prefix_append whole rest).isInfix, rfl, digits⟩
    · exact left
  · exact left

theorem spanDigits_digits_only (t : Text) : ∀ n ∈ (spanDigits t).1, isDigit n = true :=
  List.all_eq_true.mp List.all_takeWhile

/-- A number without its sign, at an end of the text. -/
theorem reads_unsigned (negative : Bool) (inside : digits <:+ t) :
    Reads t (match digits with
      | 0x30 :: rest => readMagnitude [0x30] negative rest
      | n :: rest =>
        if isDigit n then
          let (digits, after) := spanDigits (n :: rest)
          readMagnitude digits negative after
        else .error (.violation .value t.length)
      | [] => .error (.violation .value t.length)) := by
  split
  next rest => exact (reads_readMagnitude [0x30] negative rest (by simp [isDigit])).of_suffix inside
  next n rest _ =>
    split
    · have whole := reads_readMagnitude (spanDigits (n :: rest)).1 negative (spanDigits (n :: rest)).2
        (spanDigits_digits_only _)
      have same : (spanDigits (n :: rest)).1 ++ (spanDigits (n :: rest)).2 = n :: rest :=
        List.takeWhile_append_dropWhile
      exact (same ▸ whole).of_suffix inside
    · trivial
  next => trivial

theorem reads_readNumber (t : Text) : Reads t (readNumber t) := by
  refine reads_unsigned _ ?_
  split
  · exact List.suffix_cons _ _
  · exact List.suffix_rfl

/-! ## Values -/

theorem readWord?_suffix (found : readWord? t = some (value, after)) : after <:+ t := by
  obtain ⟨word, -, spelled⟩ := List.exists_of_findSome?_eq_some found
  dsimp only at spelled
  split at spelled
  · obtain ⟨-, rfl⟩ := Prod.mk.inj (Option.some.inj spelled)
    exact List.drop_suffix _ t
  · simp at spelled

section Steps
variable {fuel : Nat} (values : ∀ t, Reads t (readValue fuel t))
  (items : ∀ done t, Reads t (readItems fuel done t))
  (fields : ∀ done t, Reads t (readFields fuel done t))

include items fields in
/-- A value is a text, begins a list or an object, or is a word or a number. -/
theorem reads_readValue (t : Text) : Reads t (readValue (fuel + 1) t) := by
  unfold readValue
  split
  next rest => exact (reads_readText _ [] 0 rest).map_of_suffix (List.suffix_cons 0x22 rest)
  next rest =>
    have inside := (skipSpace_suffix rest).trans (List.suffix_cons 0x7B rest)
    split
    next after same => exact (List.suffix_cons 0x7D after).trans (same ▸ inside)
    next => exact (fields [] _).of_suffix inside
  next rest =>
    have inside := (skipSpace_suffix rest).trans (List.suffix_cons 0x5B rest)
    split
    next after same => exact (List.suffix_cons 0x5D after).trans (same ▸ inside)
    next => exact (items [] _).of_suffix inside
  next =>
    split
    next found spelled => exact readWord?_suffix spelled
    next => exact reads_readNumber t

include values items in
/-- A list goes on with a value, and then ends or goes on. -/
theorem reads_readItems (done : List Json) (t : Text) : Reads t (readItems (fuel + 1) done t) := by
  have read := values t
  unfold readItems
  split
  next refusal refused => exact (refused ▸ read).error
  next item after found =>
    have left := (skipSpace_suffix after).trans (found ▸ read : Reads t (.ok (item, after)))
    split
    next rest same => exact (List.suffix_cons 0x5D rest).trans (same ▸ left)
    next rest same =>
      refine (items _ _).of_suffix ?_
      exact ((skipSpace_suffix rest).trans (List.suffix_cons 0x2C rest)).trans (same ▸ left)
    next => trivial

include values fields in
/-- An object goes on with a name and its value, and then ends or goes on. -/
theorem reads_readFields (done : Fields) (t : Text) : Reads t (readFields (fuel + 1) done t) := by
  unfold readFields
  split
  next quoted =>
    have tail := List.suffix_cons 0x22 quoted
    have name := reads_readText (0x22 :: quoted).length [] 0 quoted
    split
    next refusal refused => exact ((refused ▸ name).of_suffix tail).error
    next label after found =>
      have left := ((skipSpace_suffix after).trans
        (found ▸ name : Reads quoted (.ok (label, after)))).trans tail
      split
      next rest same =>
        have inside := ((skipSpace_suffix rest).trans (List.suffix_cons 0x3A rest)).trans
          (same ▸ left)
        have read := (values (skipSpace rest)).of_suffix inside
        split
        next refusal refused => exact (refused ▸ read).error
        next value after found =>
          have left := (skipSpace_suffix after).trans (found ▸ read : Reads _ (.ok (value, after)))
          split
          next rest same => exact (List.suffix_cons 0x7D rest).trans (same ▸ left)
          next rest same =>
            refine (fields _ _).of_suffix ?_
            exact ((skipSpace_suffix rest).trans (List.suffix_cons 0x2C rest)).trans (same ▸ left)
          next => trivial
      next => trivial
  next => trivial

end Steps

/-- Whatever is read, an end of the text is left, or a run of digits in it is too long. -/
theorem reads_values (fuel : Nat) :
    (∀ t, Reads t (readValue fuel t)) ∧ (∀ done t, Reads t (readItems fuel done t)) ∧
      ∀ done t, Reads t (readFields fuel done t) := by
  induction fuel with
  | zero => exact ⟨fun _ => trivial, fun _ _ => trivial, fun _ _ => trivial⟩
  | succ fuel ih =>
    obtain ⟨values, items, fields⟩ := ih
    exact ⟨reads_readValue items fields, reads_readItems values items, reads_readFields values fields⟩

/-- An integer of too many digits is refused where the text has a run of as many digits. -/
theorem longInteger_of_read (refused : read t = .error (.longInteger count)) : HasLongRun count t := by
  unfold read at refused
  split at refused
  · simp at refused
  next =>
    have reads := (reads_values (2 * t.length + 2)).1 (skipSpace t)
    split at refused
    next refusal found =>
      obtain rfl := Except.error.inj refused
      exact (found ▸ reads : Reads (skipSpace t) (.error (.longInteger count))).of_suffix
        (skipSpace_suffix t)
    · split at refused <;> simp at refused

end TapeLang.Json

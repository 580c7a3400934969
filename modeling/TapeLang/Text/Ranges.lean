/-!
Sets of code points given by ranges. A table lists its ranges in ascending order, so a lookup
stops at the first range that starts after the code point: ASCII text never reads far into a
table.
-/
namespace TapeLang.Text

/-- Ranges of code points, both ends included, in ascending order. -/
abbrev Ranges := List (Nat × Nat)

/-- Whether a code point lies in one of the ranges. -/
def Ranges.has : Ranges → Nat → Bool
  | [], _ => false
  | (first, last) :: rest, n => if n < first then false else n ≤ last || Ranges.has rest n

/-- Every range starts after the end of the one before it, and none is empty. -/
def Ranges.Ascending : Ranges → Prop
  | [] => True
  | [(first, last)] => first ≤ last
  | (first, last) :: (next, stop) :: rest =>
    first ≤ last ∧ last < next ∧ Ranges.Ascending ((next, stop) :: rest)

/-- A hit names the range that holds the code point. -/
theorem Ranges.exists_mem_of_has {table : Ranges} {n : Nat} (held : table.has n = true) :
    ∃ r ∈ table, r.1 ≤ n ∧ n ≤ r.2 := by
  induction table with
  | nil => simp [has] at held
  | cons r rest ih =>
    obtain ⟨first, last⟩ := r
    simp only [has] at held
    split at held
    · simp at held
    · rename_i notBefore
      simp only [Bool.or_eq_true, decide_eq_true_eq] at held
      rcases held with inside | later
      · exact ⟨(first, last), by simp, by omega, inside⟩
      · obtain ⟨r, mem, bounds⟩ := ih later
        exact ⟨r, by simp [mem], bounds⟩

end TapeLang.Text

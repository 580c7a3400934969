import Mathlib.Data.List.TakeWhile
import TapeLang.Proofs.Json.Numbers

/-!
Written values. A value without fractional numbers, whose texts hold no halves of surrogate pairs,
whose integers are short and whose objects name no field twice, is read back from its compact form
(`read_compact`), which is printable ASCII (`printable_compact`).
-/
namespace TapeLang.Json

mutual

/-- Whether a value is read back from its compact form. -/
def Readable : Json → Prop
  | .null | .bool _ => True
  | .int n => IsShort n
  | .float _ => False
  | .text t => t.IsScalar
  | .array items => ReadableItems items
  | .object fields => (fields.map (·.1)).Nodup ∧ ReadableFields fields

def ReadableItems : List Json → Prop
  | [] => True
  | item :: rest => item.Readable ∧ ReadableItems rest

def ReadableFields : List (Text × Json) → Prop
  | [] => True
  | (name, value) :: rest => name.IsScalar ∧ value.Readable ∧ ReadableFields rest

end

variable {t after : Text} {j item value : Json} {items rest done : List Json} {name : Text}
  {fields before : Fields} {fuel : Nat}

/-! ## Fields -/

/-- A field of a new name goes to the end. -/
theorem Fields.put_of_new (fresh : name ∉ before.map (·.1)) :
    before.put name value = before ++ [(name, value)] := by
  induction before with
  | nil => rfl
  | cons field rest ih =>
    obtain ⟨other, old⟩ := field
    have differs : other ≠ name := fun same => fresh (by simp [same])
    have fresh' : name ∉ rest.map (·.1) := fun member => fresh (List.mem_cons_of_mem _ member)
    rw [Fields.put, if_neg differs, ih fresh', List.cons_append]

/-! ## The compact form -/

theorem compactItems_cons (item : Json) (more : rest ≠ []) :
    compactItems (item :: rest) = item.compact ++ [0x2C] ++ compactItems rest := by
  cases rest with
  | nil => exact absurd rfl more
  | cons => rfl

theorem compactFields_cons (name : Text) (value : Json) (more : fields ≠ []) :
    compactFields ((name, value) :: fields) =
      writeText name ++ [0x3A] ++ value.compact ++ [0x2C] ++ compactFields fields := by
  cases fields with
  | nil => exact absurd rfl more
  | cons => rfl

mutual

theorem printable_compact : (j : Json) → j.Readable → ∀ n ∈ j.compact, IsPrintable n
  | .null, _ => by decide
  | .bool true, _ => by decide
  | .bool false, _ => by decide
  | .int n, _ => printable_writeInt n
  | .text t, _ => printable_writeText t
  | .array items, readable => by
    have inside := printable_compactItems items readable
    intro n member
    simp only [compact, List.mem_append, List.mem_singleton] at member
    rcases member with (rfl | member) | rfl
    · decide
    · exact inside n member
    · decide
  | .object fields, readable => by
    have inside := printable_compactFields fields readable.2
    intro n member
    simp only [compact, List.mem_append, List.mem_singleton] at member
    rcases member with (rfl | member) | rfl
    · decide
    · exact inside n member
    · decide

theorem printable_compactItems :
    (items : List Json) → ReadableItems items → ∀ n ∈ compactItems items, IsPrintable n
  | [], _ => by simp [compactItems]
  | [item], readable => printable_compact item readable.1
  | item :: other :: rest, readable => by
    have first := printable_compact item readable.1
    have later := printable_compactItems (other :: rest) readable.2
    intro n member
    simp only [compactItems_cons item (List.cons_ne_nil other rest), List.mem_append,
      List.mem_singleton] at member
    rcases member with (member | rfl) | member
    · exact first n member
    · decide
    · exact later n member

theorem printable_compactFields :
    (fields : List (Text × Json)) → ReadableFields fields → ∀ n ∈ compactFields fields, IsPrintable n
  | [], _ => by simp [compactFields]
  | [(name, value)], readable => by
    have inside := printable_compact value readable.2.1
    intro n member
    simp only [compactFields, List.mem_append, List.mem_singleton] at member
    rcases member with (member | rfl) | member
    · exact printable_writeText name n member
    · decide
    · exact inside n member
  | (name, value) :: other :: rest, readable => by
    have inside := printable_compact value readable.2.1
    have later := printable_compactFields (other :: rest) readable.2.2
    intro n member
    simp only [compactFields_cons name value (List.cons_ne_nil other rest), List.mem_append,
      List.mem_singleton] at member
    rcases member with (((member | rfl) | member) | rfl) | member
    · exact printable_writeText name n member
    · decide
    · exact inside n member
    · decide
    · exact later n member

end

/-! ## Reading -/

/-- A value may stand before what ends a number. -/
theorem endsNumber_cons {n : Nat} (other : isDigit n = false ∧ n ≠ 0x2E ∧ n ≠ 0x65 ∧ n ≠ 0x45)
    (t : Text) : EndsNumber (n :: t) := by
  intro m member
  obtain rfl := Option.some.inj member
  exact other

/-- The first code point of a value is no white space and closes no bracket. -/
theorem head_compact (readable : j.Readable) : ∃ first rest, j.compact = first :: rest ∧
    isSpace first = false ∧ first ≠ 0x5D := by
  cases j with
  | null => exact ⟨_, _, rfl, by decide⟩
  | bool b => cases b <;> exact ⟨_, _, rfl, by decide⟩
  | int n =>
    obtain ⟨first, rest, same, digit | ⟨rfl, -⟩⟩ := head_writeInt n
    · refine ⟨first, rest, same, ?_⟩
      simp only [isDigit, Bool.and_eq_true, decide_eq_true_eq] at digit
      constructor
      · simp only [isSpace, Bool.or_eq_false_iff, beq_eq_false_iff_ne]
        omega
      · omega
    · exact ⟨_, rest, same, by decide⟩
  | float => exact readable.elim
  | text t => exact ⟨_, _, rfl, by decide⟩
  | array items => exact ⟨_, _, rfl, by decide⟩
  | object fields => exact ⟨_, _, rfl, by decide⟩

theorem skipSpace_cons {n : Nat} (other : isSpace n = false) (t : Text) :
    skipSpace (n :: t) = n :: t := by
  simp [skipSpace, other]

theorem length_compact_pos (readable : j.Readable) : 0 < j.compact.length := by
  obtain ⟨first, rest, same, -⟩ := head_compact readable
  simp [same]

/-- A number is no word. -/
theorem readWord?_writeInt (n : Int) (after : Text) : readWord? (writeInt n ++ after) = none := by
  have spelled : words.map (·.1) = [[0x6E, 0x75, 0x6C, 0x6C], [0x74, 0x72, 0x75, 0x65],
      [0x66, 0x61, 0x6C, 0x73, 0x65], [0x4E, 0x61, 0x4E],
      [0x49, 0x6E, 0x66, 0x69, 0x6E, 0x69, 0x74, 0x79],
      [0x2D, 0x49, 0x6E, 0x66, 0x69, 0x6E, 0x69, 0x74, 0x79]] := by
    decide
  have apart : ∀ word ∈ words.map (·.1), word.isPrefixOf (writeInt n ++ after) = false := by
    rw [spelled]
    obtain ⟨first, rest, same, digit | ⟨rfl, d, rest', rfl, digit⟩⟩ := head_writeInt n
    all_goals
      rw [same]
      simp only [isDigit, Bool.and_eq_true, decide_eq_true_eq] at digit
      simp only [List.cons_append, List.mem_cons, List.not_mem_nil, or_false, forall_eq_or_imp,
        forall_eq, List.isPrefixOf, Bool.and_eq_false_iff, beq_eq_false_iff_ne]
      omega
  unfold readWord?
  rw [List.findSome?_eq_none_iff]
  rintro ⟨word, value⟩ member
  have differs := apart word (List.mem_map_of_mem member)
  simp only [differs, Bool.false_eq_true, ↓reduceIte]

theorem skipSpace_compact (readable : j.Readable) (after : Text) :
    skipSpace (j.compact ++ after) = j.compact ++ after := by
  obtain ⟨first, tail, same, blank, -⟩ := head_compact readable
  rw [same, List.cons_append, skipSpace_cons blank]

theorem head_compactItems (readable : ReadableItems (item :: rest)) : ∃ first tail,
    compactItems (item :: rest) = first :: tail ∧ isSpace first = false ∧ first ≠ 0x5D := by
  obtain ⟨first, tail, same, sound⟩ := head_compact readable.1
  cases rest with
  | nil => exact ⟨first, tail, same, sound⟩
  | cons other rest =>
    refine ⟨first, tail ++ [0x2C] ++ compactItems (other :: rest), ?_, sound⟩
    rw [compactItems_cons item (List.cons_ne_nil other rest), same, List.cons_append, List.cons_append]

theorem head_compactFields (name : Text) (value : Json) (fields : Fields) :
    ∃ tail, compactFields ((name, value) :: fields) = 0x22 :: tail := by
  cases fields <;> exact ⟨_, rfl⟩

/-- What stands in brackets and is not empty is read item by item. -/
theorem readValue_items (readable : ReadableItems (item :: rest)) (fuel : Nat) (after : Text) :
    readValue (fuel + 1) (0x5B :: (compactItems (item :: rest) ++ after)) =
      readItems fuel [] (compactItems (item :: rest) ++ after) := by
  obtain ⟨first, tail, same, blank, bracket⟩ := head_compactItems readable
  rw [same, List.cons_append]
  simp only [readValue, skipSpace_cons blank]
  split
  next close => exact absurd (List.cons.inj close).1 bracket
  next => rfl

/-- What stands in braces and is not empty is read field by field. -/
theorem readValue_fields (name : Text) (value : Json) (fields : Fields) (fuel : Nat) (after : Text) :
    readValue (fuel + 1) (0x7B :: (compactFields ((name, value) :: fields) ++ after)) =
      readFields fuel [] (compactFields ((name, value) :: fields) ++ after) := by
  obtain ⟨tail, same⟩ := head_compactFields name value fields
  rw [same, List.cons_append]
  simp only [readValue, skipSpace_cons (show isSpace 0x22 = false from rfl)]

mutual

/-- A value is read back, if the bound is at least its length. -/
theorem readValue_compact : (j : Json) → j.Readable → (fuel : Nat) → (after : Text) →
    EndsNumber after → j.compact.length ≤ fuel → readValue fuel (j.compact ++ after) = .ok (j, after)
  | j, readable, 0, after, _, enough => by
    have some := length_compact_pos readable
    omega
  | .null, _, fuel + 1, after, _, _ => rfl
  | .bool true, _, fuel + 1, after, _, _ => rfl
  | .bool false, _, fuel + 1, after, _, _ => rfl
  | .int n, short, fuel + 1, after, ends, _ => by
    have word := readWord?_writeInt n after
    have number := readNumber_writeInt ends short
    obtain ⟨first, rest, same, number'⟩ := head_writeInt n
    have other : first ≠ 0x22 ∧ first ≠ 0x7B ∧ first ≠ 0x5B := by
      rcases number' with digit | ⟨rfl, -⟩
      · simp only [isDigit, Bool.and_eq_true, decide_eq_true_eq] at digit
        omega
      · decide
    rw [same, List.cons_append] at word number
    rw [compact, same, List.cons_append]
    unfold readValue
    split
    next quote => exact absurd (List.cons.inj quote).1 other.1
    next brace => exact absurd (List.cons.inj brace).1 other.2.1
    next bracket => exact absurd (List.cons.inj bracket).1 other.2.2
    next => rw [word, number]
  | .text t, scalar, fuel + 1, after, _, _ => by
    have read := readText_flatMap scalar (([0x22] ++ t.flatMap escapePoint ++ [0x22] ++ after).length)
      [] after
    rw [compact, writeText]
    simp only [List.append_assoc, List.cons_append, List.nil_append] at read ⊢
    simp only [readValue, read, List.reverse_nil, List.nil_append]
    rfl
  | .array [], _, fuel + 1, after, _, _ => rfl
  | .array (item :: rest), readable, fuel + 1, after, _, enough => by
    simp only [compact, List.length_append, List.length_singleton] at enough
    have inner := readItems_compact (item :: rest) readable fuel [] after (List.cons_ne_nil _ _)
      (by omega)
    simp only [compact, List.append_assoc, List.singleton_append]
    exact (readValue_items readable fuel _).trans inner
  | .object [], _, fuel + 1, after, _, _ => rfl
  | .object ((name, value) :: fields), readable, fuel + 1, after, _, enough => by
    simp only [compact, List.length_append, List.length_singleton] at enough
    have inner := readFields_compact ((name, value) :: fields) readable.2 fuel [] after
      (List.cons_ne_nil _ _) readable.1 (by omega)
    simp only [compact, List.append_assoc, List.singleton_append]
    exact (readValue_fields name value fields fuel _).trans inner

/-- Items are read up to the bracket that closes them. -/
theorem readItems_compact : (items : List Json) → ReadableItems items → (fuel : Nat) →
    (done : List Json) → (after : Text) → items ≠ [] → (compactItems items).length < fuel →
      readItems fuel done (compactItems items ++ 0x5D :: after) =
        .ok (.array (done.reverse ++ items), after)
  | [], _, _, _, _, more, _ => absurd rfl more
  | _, _, 0, _, _, _, enough => absurd enough (Nat.not_lt_zero _)
  | [item], readable, fuel + 1, done, after, _, enough => by
    have read := readValue_compact item readable.1 fuel (0x5D :: after)
      (endsNumber_cons (by decide) after) (Nat.le_of_lt_succ enough)
    simp only [compactItems, readItems, read, skipSpace_cons (show isSpace 0x5D = false from rfl),
      List.reverse_cons]
  | item :: other :: rest, readable, fuel + 1, done, after, _, enough => by
    rw [compactItems_cons item (List.cons_ne_nil other rest)] at enough ⊢
    simp only [List.length_append, List.length_singleton] at enough
    have read := readValue_compact item readable.1 fuel
      (0x2C :: (compactItems (other :: rest) ++ 0x5D :: after)) (endsNumber_cons (by decide) _)
      (by omega)
    have later := readItems_compact (other :: rest) readable.2 fuel (item :: done) after
      (List.cons_ne_nil other rest) (by omega)
    obtain ⟨first, tail, same, blank, -⟩ := head_compactItems readable.2
    have next : skipSpace (compactItems (other :: rest) ++ 0x5D :: after) =
        compactItems (other :: rest) ++ 0x5D :: after := by
      rw [same, List.cons_append, skipSpace_cons blank]
    simp only [List.append_assoc, readItems, read, next, later,
      skipSpace_cons (show isSpace 0x2C = false from rfl), List.reverse_cons, List.nil_append,
      List.cons_append]

/-- Fields are read up to the brace that closes them. -/
theorem readFields_compact : (fields : List (Text × Json)) → ReadableFields fields → (fuel : Nat) →
    (done : Fields) → (after : Text) → fields ≠ [] → ((done ++ fields).map (·.1)).Nodup →
      (compactFields fields).length < fuel →
        readFields fuel done (compactFields fields ++ 0x7D :: after) =
          .ok (.object (done ++ fields), after)
  | [], _, _, _, _, more, _, _ => absurd rfl more
  | _, _, 0, _, _, _, _, enough => absurd enough (Nat.not_lt_zero _)
  | [(name, value)], readable, fuel + 1, done, after, _, nodup, enough => by
    simp only [compactFields, List.length_append, List.length_singleton] at enough
    have read := readValue_compact value readable.2.1 fuel (0x7D :: after)
      (endsNumber_cons (by decide) after) (by omega)
    have fresh : name ∉ done.map (·.1) := by
      rw [List.map_append] at nodup
      exact fun member => (List.nodup_append.mp nodup).2.2 name member name (by simp) rfl
    have named (opening : Nat) := readText_flatMap readable.1 opening []
      (0x3A :: (value.compact ++ 0x7D :: after))
    simp only [compactFields, writeText, List.append_assoc, readFields, named,
      skipSpace_cons (show isSpace 0x3A = false from rfl), skipSpace_compact readable.2.1, read,
      skipSpace_cons (show isSpace 0x7D = false from rfl), List.reverse_nil, List.nil_append,
      Fields.put_of_new fresh, List.cons_append]
  | (name, value) :: other :: rest, readable, fuel + 1, done, after, _, nodup, enough => by
    rw [compactFields_cons name value (List.cons_ne_nil other rest)] at enough ⊢
    simp only [List.length_append, List.length_singleton] at enough
    have read := readValue_compact value readable.2.1 fuel
      (0x2C :: (compactFields (other :: rest) ++ 0x7D :: after)) (endsNumber_cons (by decide) _)
      (by omega)
    have fresh : name ∉ done.map (·.1) := by
      rw [List.map_append] at nodup
      exact fun member => (List.nodup_append.mp nodup).2.2 name member name (by simp) rfl
    have later := readFields_compact (other :: rest) readable.2.2 fuel (done ++ [(name, value)]) after
      (List.cons_ne_nil other rest) (by simpa using nodup) (by omega)
    have named (opening : Nat) := readText_flatMap readable.1 opening []
      (0x3A :: (value.compact ++ 0x2C :: (compactFields (other :: rest) ++ 0x7D :: after)))
    obtain ⟨tail, same⟩ := head_compactFields other.1 other.2 rest
    have next : skipSpace (compactFields (other :: rest) ++ 0x7D :: after) =
        compactFields (other :: rest) ++ 0x7D :: after := by
      rw [same, List.cons_append, skipSpace_cons (by decide)]
    simp only [writeText, List.append_assoc, readFields, named,
      skipSpace_cons (show isSpace 0x3A = false from rfl), skipSpace_compact readable.2.1, read,
      skipSpace_cons (show isSpace 0x2C = false from rfl), List.reverse_nil, List.nil_append,
      Fields.put_of_new fresh, next, later, List.cons_append]

end

/-- A value is read back from its compact form, whatever white space follows. -/
theorem read_compact (readable : j.Readable) (blank : ∀ n ∈ after, isSpace n = true) :
    read (j.compact ++ after) = .ok j := by
  have ends : EndsNumber after := by
    intro n member
    have space := blank n (List.mem_of_mem_head? member)
    simp only [isSpace, Bool.or_eq_true, beq_iff_eq] at space
    simp only [isDigit, Bool.and_eq_false_iff, decide_eq_false_iff_not]
    omega
  have value := readValue_compact j readable (2 * (j.compact ++ after).length + 2) after ends (by
    rw [List.length_append]
    omega)
  have rest : skipSpace after = [] := by
    rw [skipSpace, List.dropWhile_eq_nil_iff]
    exact blank
  obtain ⟨first, tail, same, -⟩ := head_compact readable
  have printable : IsPrintable first := printable_compact j readable first (by simp [same])
  have mark : first ≠ 0xFEFF := by
    unfold IsPrintable at printable
    omega
  have spaces := skipSpace_compact readable after
  rw [same, List.cons_append] at value spaces ⊢
  unfold read
  split
  next bom => exact absurd (List.cons.inj bom).1 mark
  next => simp only [spaces, value, rest]

end TapeLang.Json

import TapeLang.Proofs.Grammar

/-!
The brackets of a token list that belong together, found in one pass with a stack of the open ones.
On the tokens of a block the pass leaves the stack as it was, so the table of a whole text contains
every loop of it at its own place, and no other entry has a bracket in common with it.
-/
namespace TapeLang.Source

/-- The brackets that belong together, by their indices. `opened` holds the open ones, innermost
first, and `index` is where the tokens start. -/
def pairsFrom (opened : List Nat) (index : Nat) : List Token → List (Nat × Nat)
  | [] => []
  | token :: rest =>
    match token.kind, opened with
    | .loopOpen, _ => pairsFrom (index :: opened) (index + 1) rest
    | .loopClose, start :: outer => (start, index) :: pairsFrom outer (index + 1) rest
    | _, _ => pairsFrom opened (index + 1) rest

/-- The brackets of a text that belong together. -/
def bracketPairs (code : List Token) : List (Nat × Nat) := pairsFrom [] 0 code

/-- Tokens without a bracket. -/
def Plain (tokens : List Token) : Prop :=
  ∀ token ∈ tokens, token.kind ≠ .loopOpen ∧ token.kind ≠ .loopClose

theorem Marks.plain (marks : Marks tokens) : Plain tokens := by
  intro token member
  simp [marks token member]

theorem Says.plain (spoken : Says piece (.act head action)) : Plain piece := by
  obtain ⟨_, _, _, _, kinds⟩ := spoken.action_tokens
  exact fun token member => ⟨(kinds token member).1, (kinds token member).2.1⟩

variable {opened : List Nat} {index : Nat} {rest : List Token}

theorem pairsFrom_open (opens : token.kind = .loopOpen) :
    pairsFrom opened index (token :: rest) = pairsFrom (index :: opened) (index + 1) rest := by
  simp [pairsFrom, opens]

theorem pairsFrom_close (closes : token.kind = .loopClose) :
    pairsFrom (start :: opened) index (token :: rest) =
      (start, index) :: pairsFrom opened (index + 1) rest := by
  simp [pairsFrom, closes]

theorem pairsFrom_other (notOpen : token.kind ≠ .loopOpen)
    (unpaired : token.kind ≠ .loopClose ∨ opened = []) :
    pairsFrom opened index (token :: rest) = pairsFrom opened (index + 1) rest := by
  cases kind : token.kind <;> cases opened <;> simp [pairsFrom, kind] at notOpen unpaired ⊢

/-- Tokens without a bracket are passed over. -/
theorem pairsFrom_plain (plain : Plain tokens) :
    pairsFrom opened index (tokens ++ rest) = pairsFrom opened (index + tokens.length) rest := by
  induction tokens generalizing index with
  | nil => rfl
  | cons token tokens ih =>
    obtain ⟨notOpen, notClose⟩ := plain token (by simp)
    rw [List.cons_append, pairsFrom_other notOpen (.inl notClose),
      ih (fun other member => plain other (by simp [member])), List.length_cons]
    congr 1
    omega

/-- The tokens of a block pair up among themselves. -/
theorem pairsFrom_spelled (spelled : Spells tokens block) :
    pairsFrom opened index (tokens ++ rest) =
      pairsFrom [] index tokens ++ pairsFrom opened (index + tokens.length) rest := by
  refine Spells.block_induction (motive := fun tokens _ => ∀ opened index rest,
    pairsFrom opened index (tokens ++ rest) =
      pairsFrom [] index tokens ++ pairsFrom opened (index + tokens.length) rest)
    ?nil ?act ?loop spelled opened index rest
  case nil => intros; rfl
  case act =>
    intro debugs piece _ _ tokens _ marks spoken _ ih opened index rest
    have plain : Plain (debugs ++ piece) := by
      intro token member
      rcases List.mem_append.mp member with member | member
      · exact marks.plain token member
      · exact spoken.plain token member
    have passed (opened rest) : pairsFrom opened index ((debugs ++ piece) ++ rest) =
        pairsFrom opened (index + (debugs ++ piece).length) rest := pairsFrom_plain plain
    have length : index + ((debugs ++ piece) ++ tokens).length =
        index + (debugs ++ piece).length + tokens.length := by
      simp only [List.length_append]
      omega
    rw [← List.append_assoc debugs, length, List.append_assoc (debugs ++ piece), passed, passed, ih]
  case loop =>
    intro debugs opening middle closing _ _ tokens _ marks opens _ within closes _ ih opened index rest
    -- The opening bracket is on the stack while the body pairs up, and the closing one takes it off.
    have loop := fun opened rest => calc
      pairsFrom opened index (debugs ++ (opening :: middle ++ [closing] ++ rest))
      _ = pairsFrom opened (index + debugs.length) (opening :: (middle ++ (closing :: rest))) := by
        rw [pairsFrom_plain marks.plain]; simp
      _ = pairsFrom [] (index + debugs.length + 1) middle ++
          (index + debugs.length, index + debugs.length + 1 + middle.length) ::
            pairsFrom opened (index + debugs.length + 1 + middle.length + 1) rest := by
        rw [pairsFrom_open opens, within, pairsFrom_close closes]
    have length : index + (debugs ++ (opening :: middle ++ [closing] ++ tokens)).length =
        index + debugs.length + 1 + middle.length + 1 + tokens.length := by
      simp; omega
    rw [List.append_assoc debugs, List.append_assoc (opening :: middle ++ [closing]), loop, loop, ih,
      length]
    simp

/-- Every entry closes among the tokens, and opens among them or on the stack. -/
theorem pairsFrom_bounds (member : p ∈ pairsFrom opened index tokens) :
    (p.1 ∈ opened ∨ index ≤ p.1) ∧ index ≤ p.2 ∧ p.2 < index + tokens.length := by
  induction tokens generalizing opened index with
  | nil => simp [pairsFrom] at member
  | cons token tokens ih =>
    unfold pairsFrom at member
    simp only [List.length_cons]
    split at member
    · obtain ⟨opens, lower, upper⟩ := ih member
      refine ⟨?_, by omega, by omega⟩
      rcases opens with opens | later
      · rcases List.mem_cons.mp opens with here | before
        · exact .inr (Nat.le_of_eq here.symm)
        · exact .inl before
      · exact .inr (Nat.le_of_succ_le later)
    · rcases List.mem_cons.mp member with rfl | member
      · simp
      · obtain ⟨opens, lower, upper⟩ := ih member
        exact ⟨opens.imp (List.mem_cons_of_mem _) Nat.le_of_succ_le, by omega, by omega⟩
    · obtain ⟨opens, lower, upper⟩ := ih member
      exact ⟨opens.imp_right Nat.le_of_succ_le, by omega, by omega⟩

/-- A pass over the beginning of a text emits entries that lie in it, and goes on from a stack. -/
theorem pairsFrom_append (below : ∀ start ∈ opened, start < index) :
    ∃ emitted stack, (∀ p ∈ emitted, p.1 < index + tokens.length ∧ p.2 < index + tokens.length) ∧
      ∀ rest, pairsFrom opened index (tokens ++ rest) =
        emitted ++ pairsFrom stack (index + tokens.length) rest := by
  induction tokens generalizing opened index with
  | nil => exact ⟨[], opened, by simp, by simp⟩
  | cons token tokens ih =>
    have later : index + 1 + tokens.length = index + (token :: tokens).length := by
      simp only [List.length_cons]; omega
    -- Whatever the first token does, the rest emits entries from the next index on.
    have rest := fun opened (below : ∀ start ∈ opened, start < index + 1) => later ▸ ih below
    by_cases opens : token.kind = .loopOpen
    · obtain ⟨emitted, stack, within, same⟩ := rest (index :: opened) (by
        intro start member
        rcases List.mem_cons.mp member with rfl | member
        · omega
        · exact Nat.lt_succ_of_lt (below start member))
      exact ⟨emitted, stack, within, fun rest => by rw [List.cons_append, pairsFrom_open opens, same]⟩
    by_cases closes : token.kind = .loopClose ∧ opened ≠ []
    · obtain ⟨start, outer, rfl⟩ := List.exists_cons_of_ne_nil closes.2
      obtain ⟨emitted, stack, within, same⟩ := rest outer fun other member =>
        Nat.lt_succ_of_lt (below other (by simp [member]))
      refine ⟨(start, index) :: emitted, stack, ?_, fun rest => by
        rw [List.cons_append, pairsFrom_close closes.1, same, List.cons_append]⟩
      intro p member
      rcases List.mem_cons.mp member with rfl | member
      · have := below start (by simp)
        simp only [List.length_cons]; omega
      · exact within p member
    · obtain ⟨emitted, stack, within, same⟩ := rest opened fun other member =>
        Nat.lt_succ_of_lt (below other member)
      refine ⟨emitted, stack, within, ?_⟩
      intro rest
      have unpaired := (Decidable.not_and_iff_not_or_not.mp closes).imp_right Decidable.not_not.mp
      rw [List.cons_append, pairsFrom_other opens unpaired, same]

/-- In a text that holds a loop, the table pairs the brackets of that loop and no other bracket with
either of them. -/
theorem bracketPairs_of_loop (code : List Token) (opens : opening.kind = .loopOpen)
    (spelled : Spells middle body) (closes : closing.kind = .loopClose)
    (place : code.drop start = opening :: (middle ++ closing :: after)) :
    let pair := (start, start + 1 + middle.length)
    (bracketPairs code).find? (·.1 = pair.1) = some pair ∧
      (bracketPairs code).find? (·.2 = pair.2) = some pair := by
  intro pair
  have split : code = code.take start ++ opening :: (middle ++ closing :: after) := by
    rw [← place, List.take_append_drop]
  have length : (code.take start).length = start := by
    have nonempty := congrArg List.length place
    simp only [List.length_drop, List.length_cons] at nonempty
    rw [List.length_take]
    omega
  have none : ∀ start ∈ ([] : List Nat), start < 0 := by simp
  obtain ⟨emitted, stack, before, same⟩ := @pairsFrom_append _ _ (code.take start) none
  have table : bracketPairs code = emitted ++ (pairsFrom [] (start + 1) middle ++
      pair :: pairsFrom stack (start + 1 + middle.length + 1) after) := by
    rw [bracketPairs, split, same, length, Nat.zero_add, pairsFrom_open opens,
      pairsFrom_spelled spelled, pairsFrom_close closes]
  have outside : ∀ p ∈ emitted ++ pairsFrom [] (start + 1) middle,
      p.1 ≠ pair.1 ∧ p.2 ≠ pair.2 := by
    intro p member
    rcases List.mem_append.mp member with member | member
    · have := before p member
      rw [length] at this
      constructor <;> simp only [pair] <;> omega
    · have := pairsFrom_bounds member
      simp only [List.not_mem_nil, false_or] at this
      constructor <;> simp only [pair] <;> omega
  rw [table, ← List.append_assoc]
  constructor
  · rw [List.find?_append, List.find?_eq_none.mpr fun p member => by simpa using (outside p member).1]
    simp
  · rw [List.find?_append, List.find?_eq_none.mpr fun p member => by simpa using (outside p member).2]
    simp

end TapeLang.Source

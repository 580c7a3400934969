import Mathlib.Tactic.SplitIfs
import TapeLang.Source.Token

/-!
The order in which a text gives its tokens. A number stands directly after a bar and is made of digits;
a word stands after an `io`, with nothing but bars and numbers in between, since only these leave the
scanner waiting for the word. So neither of them ever stands where a statement may begin.
-/
namespace TapeLang.Source

/-- After the last `io` of some tokens, newest first, come only bars and numbers. -/
inductive Expecting : List Token → Prop where
  | io (kind : token.kind = .io) : Expecting (token :: before)
  | past (kind : token.kind = .bar ∨ token.kind = .number) (expecting : Expecting before) :
      Expecting (token :: before)

/-- Characters that make a number. -/
def IsNumeral (lexeme : List Char) : Prop := lexeme ≠ [] ∧ ∀ c ∈ lexeme, isDigitChar c = true

/-- Tokens, newest first, each of which may stand where it stands. -/
inductive Ordered : List Token → Prop where
  | nil : Ordered []
  | number (kind : token.kind = .number) (numeral : IsNumeral token.lexeme) (bar : last.kind = .bar)
      (ordered : Ordered (last :: before)) : Ordered (token :: last :: before)
  | word (kind : token.kind = .word) (expecting : Expecting before) (ordered : Ordered before) :
      Ordered (token :: before)
  | other (kind : token.kind ≠ .number ∧ token.kind ≠ .word) (ordered : Ordered before) :
      Ordered (token :: before)

theorem Ordered.tail (ordered : Ordered (token :: before)) : Ordered before := by
  cases ordered with
  | number _ _ _ ordered => exact ordered
  | word _ _ ordered => exact ordered
  | other _ ordered => exact ordered

/-- The tokens before some others are in order too. -/
theorem Ordered.of_append (ordered : Ordered (after ++ before)) : Ordered before := by
  induction after with
  | nil => exact ordered
  | cons token after ih => exact ih ordered.tail

theorem Ordered.isNumeral (ordered : Ordered tokens) (member : token ∈ tokens)
    (kind : token.kind = .number) : IsNumeral token.lexeme := by
  induction ordered with
  | nil => simp at member
  | number _ numeral _ _ ih =>
    rcases List.mem_cons.mp member with rfl | earlier
    · exact numeral
    · exact ih earlier
  | word other _ _ ih =>
    rcases List.mem_cons.mp member with rfl | earlier
    · simp [kind] at other
    · exact ih earlier
  | other kind' _ ih =>
    rcases List.mem_cons.mp member with rfl | earlier
    · exact absurd kind kind'.1
    · exact ih earlier

/-! ## The scanner -/

/-- The tokens of a scanner are in order, and so is the one that its run may become. -/
structure Scanner.InOrder (s : Scanner) : Prop where
  ordered : Ordered s.tokens
  expecting : s.expecting = true → Expecting s.tokens
  number : ∀ position read, s.run = .number position read →
    (∃ bar before, s.tokens = bar :: before ∧ bar.kind = .bar) ∧ ∀ c ∈ read, isDigitChar c = true

variable {s : Scanner}

theorem kind_of_instruction? {c : Char} {kind : TokenKind} (found : instruction? c = some kind) :
    kind ≠ .number ∧ kind ≠ .word := by
  unfold instruction? at found
  split at found <;> simp only [Option.some.injEq, reduceCtorEq] at found <;> subst found <;> simp

/-- A scanner that is in order, whatever run begins that is no number. -/
theorem Scanner.InOrder.turn (inOrder : s.InOrder) (expecting : Bool) (run : Run)
    (still : expecting = true → s.expecting = true)
    (begins : ∀ position read, run ≠ .number position read) :
    ({ s with run, expecting } : Scanner).InOrder where
  ordered := inOrder.ordered
  expecting waits := inOrder.expecting (still waits)
  number position read same := absurd same (begins position read)

theorem Scanner.InOrder.closeRun (inOrder : s.InOrder) (run : Run)
    (begins : ∀ position read, run ≠ .number position read) :
    ({ s.closeRun with run } : Scanner).InOrder := by
  have same := inOrder.turn s.expecting run id begins
  unfold Scanner.closeRun
  split
  · exact same
  · exact same
  next position read begun =>
    obtain ⟨⟨bar, before, tokens, kind⟩, digits⟩ := inOrder.number position read begun
    split_ifs with empty
    · exact same
    · refine ⟨?_, fun waits => .past (.inr rfl) (inOrder.expecting waits), fun position read same =>
        absurd same (begins position read)⟩
      have numeral : IsNumeral read.reverse :=
        ⟨by simpa using empty, fun c member => digits c (List.mem_reverse.mp member)⟩
      have ordered := inOrder.ordered
      simp only [Scanner.emit, tokens] at ordered ⊢
      exact .number rfl numeral kind ordered
  next position read begun =>
    unfold Scanner.closeWord
    split_ifs with waits
    · exact ⟨.word rfl (inOrder.expecting waits) inOrder.ordered, by simp,
        fun position read same => absurd same (begins position read)⟩
    · exact ⟨.other (by simp) inOrder.ordered, fun waits' => absurd waits' waits,
        fun position read same => absurd same (begins position read)⟩
    · exact ⟨.other (by simp) inOrder.ordered, fun _ => .io rfl,
        fun position read same => absurd same (begins position read)⟩
    · exact same

/-- A character that belongs to no run adds at most one token, and that token may stand anywhere. -/
theorem Scanner.InOrder.enter (inOrder : s.InOrder) (c : Char) : (s.enter c).InOrder := by
  unfold Scanner.enter
  split
  next kind found =>
    exact ⟨.other (kind_of_instruction? found) inOrder.ordered, by simp, by simp⟩
  next =>
    split_ifs
    · refine ⟨.other (by simp) inOrder.ordered, fun waits => .past (.inl rfl) (inOrder.expecting waits),
        ?_⟩
      intro position read same
      obtain ⟨-, rfl⟩ := Run.number.inj same
      exact ⟨⟨_, _, rfl, rfl⟩, by simp⟩
    · exact inOrder.turn s.expecting _ id (by simp)
    · exact inOrder.turn _ .gap (fun waits => (Bool.and_eq_true_iff.mp waits).1) (by simp)

/-- Entering a character does not depend on the run before it. -/
theorem Scanner.enter_run (s : Scanner) (run : Run) (c : Char) :
    ({ s with run } : Scanner).enter c = s.enter c := by
  unfold Scanner.enter
  split
  · rfl
  · split_ifs <;> rfl

theorem Scanner.InOrder.read (inOrder : s.InOrder) (c : Char) : (s.read c).InOrder := by
  have closed : (s.closeRun.enter c).InOrder :=
    Scanner.enter_run s.closeRun .gap c ▸ (inOrder.closeRun .gap (by simp)).enter c
  unfold Scanner.read
  split
  · exact inOrder.enter c
  next position read begun =>
    obtain ⟨bar, digits⟩ := inOrder.number position read begun
    split_ifs with digit
    · refine ⟨inOrder.ordered, inOrder.expecting, ?_⟩
      intro position' read' same
      obtain ⟨-, rfl⟩ := Run.number.inj same
      refine ⟨bar, fun other member => ?_⟩
      rcases List.mem_cons.mp member with rfl | earlier
      · exact digit
      · exact digits other earlier
    · exact inOrder.enter c
    · exact (inOrder.closeRun .tail (by simp)).turn false .tail (by simp) (by simp)
    · exact closed
  next =>
    split_ifs
    · exact inOrder.turn s.expecting _ id (by simp)
    · exact closed
  next =>
    split_ifs
    · exact inOrder
    · exact inOrder.enter c

theorem Scanner.InOrder.step (inOrder : s.InOrder) (c : Char) : (s.step c).InOrder := by
  have read := inOrder.read c
  exact ⟨read.ordered, read.expecting, read.number⟩

theorem Scanner.InOrder.foldl (inOrder : s.InOrder) (source : List Char) :
    (source.foldl Scanner.step s).InOrder := by
  induction source generalizing s with
  | nil => exact inOrder
  | cons c rest ih => exact ih (inOrder.step c)

/-- The tokens of a text are in order. -/
theorem ordered_tokenize (source : List Char) : Ordered (tokenize source).reverse := by
  have start : Scanner.start.InOrder := ⟨.nil, by simp [Scanner.start], by simp [Scanner.start]⟩
  rw [tokenize, Scanner.finish, List.reverse_reverse]
  exact ((start.foldl source).closeRun .gap (by simp)).ordered

end TapeLang.Source

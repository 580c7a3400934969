import TapeLang.Failure
import TapeLang.Proofs.Grammar.Violations

/-!
Errors with a place. A text that is no program is refused with an error of the grammar that names the
file and a token, unless the parser meets a number that no literal spells: a digit that is not decimal,
or too many digits (`parse_located_iff`). The refusal of a number has no place.
-/
namespace TapeLang.Source

/-- An error of the grammar in a text, at one of its tokens. -/
structure Located (source : List Char) (path : String) (error : ProgramError) : Prop where
  kind : error.kind = .grammar
  path : error.path = path
  place : ∃ token ∈ tokenize source, error.position = token.position

/-- A number that a statement pushes, and that is no literal, stands where the statement may begin. -/
def Illegible (tokens : List Token) : Prop :=
  ∃ before opened debugs opening number after,
    tokens = before ++ (debugs ++ opening :: number :: after) ∧ Opens before opened ∧ Marks debugs ∧
    opening.kind = .bar ∧ number.kind = .number ∧
    ¬ (Text.Numeral.IsDecimal (number.lexeme.map Char.toNat) ∧
      number.lexeme.length ≤ Text.Numeral.digitLimit)

/-- An open bracket is one of the tokens. -/
theorem Opens.mem (opens : Opens before (opening :: opened)) : opening ∈ before := by
  cases opens
  simp

/-- A violation of the grammar is at a token. -/
theorem Breaks.place (breaks : Breaks tokens (.malformed fault position)) :
    ∃ token ∈ tokens, position = token.position := by
  cases breaks with
  | loopUnclosed opens => exact ⟨_, opens.mem, rfl⟩
  | _ => exact ⟨_, by simp, rfl⟩

/-- The numbers that are refused. -/
theorem pushValue_refused_iff (member : token ∈ tokenize source) (kind : token.kind = .number) :
    (∃ fault, pushValue token.lexeme = .error fault) ↔
      ¬ (Text.Numeral.IsDecimal (token.lexeme.map Char.toNat) ∧
        token.lexeme.length ≤ Text.Numeral.digitLimit) := by
  rw [← read_number_iff member kind, pushValue]
  cases Text.Numeral.read (token.lexeme.map Char.toNat) <;> simp [Except.map]

theorem numeral_iff_illegible :
    (∃ fault, Breaks (tokenize source) (.numeral fault)) ↔ Illegible (tokenize source) := by
  constructor
  · rintro ⟨fault, breaks⟩
    generalize same : tokenize source = tokens at breaks
    cases breaks with
    | numeral opens marks bar kind refused =>
      rename_i number after
      have member : number ∈ tokenize source := by simp [same]
      exact ⟨_, _, _, _, number, after, rfl, opens, marks, bar, kind,
        (pushValue_refused_iff member kind).mp ⟨fault, refused⟩⟩
  · rintro ⟨before, opened, debugs, opening, number, after, split, opens, marks, bar, kind, illegible⟩
    have member : number ∈ tokenize source := by simp [split]
    obtain ⟨fault, refused⟩ := (pushValue_refused_iff member kind).mpr illegible
    exact ⟨fault, split ▸ .numeral opens marks bar kind refused⟩

/-- A text is a program, or is refused with an error that has a place, exactly if the parser comes to no
number that is no literal. -/
theorem parse_located_iff (source : List Char) (path : String) :
    ((∃ program, Block.parse source = .ok program) ∨
      ∃ fault position, Block.parse source = .error (.malformed fault position) ∧
        Located source path (fault.located position path)) ↔
      ¬ Illegible (tokenize source) := by
  rw [← numeral_iff_illegible]
  constructor
  · rintro (⟨program, parsed⟩ | ⟨fault, position, refused, -⟩) ⟨numeral, breaks⟩
    · rw [parse_error_iff.mpr breaks] at parsed
      simp at parsed
    · rw [parse_error_iff.mpr breaks] at refused
      simp at refused
  · intro legible
    cases verdict : Block.parse source with
    | ok program => exact .inl ⟨program, rfl⟩
    | error e =>
      have breaks := parse_error_iff.mp verdict
      cases e with
      | malformed fault position => exact .inr ⟨fault, position, rfl, rfl, rfl, breaks.place⟩
      | numeral fault => exact absurd ⟨fault, breaks⟩ legible

/-- A superscript digit belongs to a number, and the refusal of that number has no place. -/
theorem parse_superscript :
    ¬ ((∃ program, Block.parse ['|', '²'] = .ok program) ∨
      ∃ fault position, Block.parse ['|', '²'] = .error (.malformed fault position) ∧
        Located ['|', '²'] "main.bf" (fault.located position "main.bf")) := by
  have tokens : tokenize ['|', '²'] = [⟨.bar, ['|'], ⟨1, 1⟩⟩, ⟨.number, ['²'], ⟨1, 2⟩⟩] := by decide
  have refused : Block.parse ['|', '²'] = .error (.numeral (.malformed 10 [0xB2])) := by
    rw [Block.parse, tokens]
    rfl
  simp [refused]

end TapeLang.Source

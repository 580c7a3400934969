import Mathlib.Tactic.SplitIfs
import TapeLang.Machine.Snapshot
import TapeLang.Proofs.Grammar
import TapeLang.Proofs.Stepping
import TapeLang.Proofs.Wire

/-!
What a snapshot shows is read back as it was. The numbers in it are positions in the source text,
numbers of statements, and bytes; in a text of less than `2 ^ 63` code points, which is as long as a
text can be, none of them has too many digits (`brief_of_parse`, `Machine.sound_snapshot`).
-/
namespace TapeLang

/-- The longest a text can be. -/
def Text.sizeLimit : Nat := 2 ^ 63

namespace Source

/-- A number that a text within the limit can give rise to. -/
def IsBrief (n : Nat) : Prop := n < 4 * Text.sizeLimit

/-- An action whose value, if it has one, is a byte. -/
def Action.IsBrief : Action → Prop
  | .push value => 0 ≤ value ∧ value < 256
  | _ => True

/-- A block whose positions, values and lengths are brief. -/
def Block.IsBrief : Block → Prop
  | .nil => True
  | .act head action next =>
    Source.IsBrief head.position.line ∧ Source.IsBrief head.position.column ∧ action.IsBrief ∧
      next.IsBrief
  | .loop head body next =>
    Source.IsBrief head.position.line ∧ Source.IsBrief head.position.column ∧
      Source.IsBrief body.length ∧ body.IsBrief ∧ next.IsBrief

theorem hereditary_isBrief : Machine.Hereditary Block.IsBrief where
  act holds := holds.2.2.2
  loop holds := holds.2.2.2

/-! ## Tokens -/

/-- A position not further than so many lines and columns. -/
def Position.Within (p : Position) (bound : Nat) : Prop := p.line ≤ bound ∧ p.column ≤ bound

/-- All positions that the scanner knows are within a bound, and it has not seen too many tokens. -/
structure Scanner.Within (s : Scanner) (bound count : Nat) : Prop where
  position : s.position.Within bound
  run : ∀ position read, s.run = .number position read ∨ s.run = .word position read →
    position.Within bound
  tokens : ∀ token ∈ s.tokens, token.position.Within bound
  few : s.tokens.length ≤ count

variable {s : Scanner} {p : Position} {bound more count : Nat} {source : List Char}

theorem Position.Within.mono (within : p.Within bound) (le : bound ≤ more) : p.Within more :=
  ⟨within.1.trans le, within.2.trans le⟩

theorem Position.Within.advance (within : p.Within bound) (c : Char) :
    (p.advance c).Within (bound + 1) := by
  obtain ⟨line, column⟩ := within
  unfold Position.advance Position.Within
  split <;> simp <;> omega

theorem Scanner.Within.mono (within : s.Within bound count) (le : bound ≤ more) :
    s.Within more count where
  position := within.position.mono le
  run position read begun := (within.run position read begun).mono le
  tokens token member := (within.tokens token member).mono le
  few := within.few

theorem Scanner.Within.emit (within : s.Within bound count) (kind : TokenKind)
    (lexeme : List Char) (here : p.Within bound) : (s.emit kind lexeme p).Within bound (count + 1) where
  position := within.position
  run := within.run
  tokens token member := by
    rcases List.mem_cons.mp member with rfl | earlier
    · exact here
    · exact within.tokens token earlier
  few := Nat.succ_le_succ within.few

/-- A scanner with fewer tokens. -/
theorem Scanner.Within.succ (within : s.Within bound count) : s.Within bound (count + 1) :=
  { within with few := Nat.le_succ_of_le within.few }

/-- A scanner within a bound, whatever it waits for, that is not in a run. -/
theorem Scanner.Within.gap (within : s.Within bound count) (expecting : Bool) (run : Run)
    (outside : run = .gap ∨ run = .tail) :
    ({ s with run, expecting } : Scanner).Within bound count :=
  { within with
    run := by
      rintro position read (begun | begun) <;> rcases outside with rfl | rfl <;> simp at begun }

theorem Scanner.Within.closeRun (within : s.Within bound count) :
    s.closeRun.Within bound (count + 1) := by
  unfold Scanner.closeRun
  split
  · exact within.succ
  · exact within.succ
  next position read begun =>
    split
    · exact within.succ
    · exact within.emit .number read.reverse (within.run position read (.inl begun))
  next position read begun =>
    have here := within.run position read (.inr begun)
    unfold Scanner.closeWord
    split_ifs
    · exact { within.emit .word read.reverse here with }
    · exact within.emit .debug read.reverse here
    · exact { within.emit .io read.reverse here with }
    · exact within.succ

theorem Scanner.Within.enter (within : s.Within bound count) (c : Char) :
    (s.enter c).Within (bound + 1) (count + 1) := by
  have wider := within.mono (Nat.le_succ bound)
  unfold Scanner.enter
  split
  next kind _ => exact (wider.emit kind [c] wider.position).gap false .gap (.inl rfl)
  next =>
    split_ifs
    · refine { wider.emit .bar [c] wider.position with run := ?_ }
      rintro position read (begun | begun)
      · obtain ⟨rfl, -⟩ := Run.number.inj begun
        exact within.position.advance c
      · simp at begun
    · refine { wider.succ with run := ?_ }
      rintro position read (begun | begun)
      · simp at begun
      · obtain ⟨rfl, -⟩ := Run.word.inj begun
        exact wider.position
    · exact wider.succ.gap _ .gap (.inl rfl)

theorem Scanner.Within.read (within : s.Within bound count) (c : Char) :
    (s.read c).Within (bound + 1) (count + 2) := by
  have wider := within.mono (Nat.le_succ bound)
  have entered := (within.enter c).succ
  unfold Scanner.read
  split
  · exact entered
  next position read begun =>
    split_ifs
    · refine { wider.succ.succ with run := ?_ }
      rintro position' read' (begun' | begun')
      · obtain ⟨rfl, -⟩ := Run.number.inj begun'
        exact wider.run position read (.inl begun)
      · simp at begun'
    · exact entered
    · exact wider.closeRun.succ.gap false .tail (.inr rfl)
    · exact within.closeRun.enter c
  next position read begun =>
    split_ifs
    · refine { wider.succ.succ with run := ?_ }
      rintro position' read' (begun' | begun')
      · simp at begun'
      · obtain ⟨rfl, -⟩ := Run.word.inj begun'
        exact wider.run position read (.inr begun)
    · exact within.closeRun.enter c
  next =>
    split_ifs
    · exact wider.succ.succ
    · exact entered

theorem Scanner.Within.step (within : s.Within bound count) (c : Char) :
    (s.step c).Within (bound + 1) (count + 2) :=
  { within.read c with position := within.position.advance c }

theorem Scanner.Within.foldl (within : s.Within bound count) (source : List Char) :
    (source.foldl Scanner.step s).Within (bound + source.length) (count + 2 * source.length) := by
  induction source generalizing s bound count with
  | nil => exact within
  | cons c rest ih =>
    have later := ih (within.step c)
    have bounds : bound + 1 + rest.length = bound + (rest.length + 1) := by omega
    have counts : count + 2 + 2 * rest.length = count + 2 * (rest.length + 1) := by omega
    rw [bounds, counts] at later
    exact later

/-- The tokens of a text stand within its lines and columns, and there are not too many. -/
theorem tokens_within (source : List Char) :
    (tokenize source).length ≤ 2 * source.length + 1 ∧
      ∀ token ∈ tokenize source, token.position.Within (source.length + 1) := by
  have start : Scanner.start.Within 1 0 :=
    ⟨⟨Nat.le_refl 1, Nat.le_refl 1⟩, by simp [Scanner.start], by simp [Scanner.start], Nat.le_refl 0⟩
  have scanned := (start.foldl source).closeRun
  rw [Nat.zero_add, Nat.add_comm 1] at scanned
  constructor
  · rw [tokenize, Scanner.finish, List.length_reverse]
    exact scanned.few
  · intro token member
    exact scanned.tokens token (List.mem_reverse.mp member)

/-! ## Programs -/

theorem pushValue_byte {lexeme : List Char} {value : Int} (counts : pushValue lexeme = .ok value) :
    0 ≤ value ∧ value < 256 := by
  unfold pushValue at counts
  cases read : Text.Numeral.read (lexeme.map Char.toNat) with
  | error => simp [read, Except.map] at counts
  | ok n =>
    rw [read] at counts
    obtain rfl := Except.ok.inj counts
    exact ⟨Int.emod_nonneg n (by decide), Int.emod_lt_of_pos n (by decide)⟩

/-- The action of a token that is a statement of its own has no value. -/
theorem isBrief_of_action? {kind : TokenKind} {action : Action} (known : kind.action? = some action) :
    action.IsBrief := by
  cases kind <;> simp only [TokenKind.action?, Option.some.injEq, reduceCtorEq] at known <;>
    subst known <;> trivial

/-- A block has no more statements than tokens. -/
theorem Spells.length_le {tokens : List Token} {block : Block} (spelled : Spells tokens block) :
    block.length ≤ tokens.length := by
  refine Spells.block_induction (motive := fun tokens block => block.length ≤ tokens.length)
    (Nat.le_refl 0) ?_ ?_ spelled
  · intro debugs piece head action tokens next _ spoken _ holds
    obtain ⟨first, more, rfl, -⟩ := spoken.action_tokens
    simp only [Block.length, List.length_append, List.length_cons]
    omega
  · intro debugs opening middle closing head body tokens next _ _ _ _ _ _ holds
    simp only [Block.length, List.length_append, List.length_cons]
    omega

/-- Tokens whose positions and number are brief. -/
def AreBrief (tokens : List Token) : Prop :=
  IsBrief tokens.length ∧
    ∀ token ∈ tokens, IsBrief token.position.line ∧ IsBrief token.position.column

theorem AreBrief.sublist {some all : List Token} (brief : AreBrief all) (part : some.Sublist all) :
    AreBrief some :=
  ⟨Nat.lt_of_le_of_lt part.length_le brief.1, fun token member => brief.2 token (part.subset member)⟩

/-- The program that such tokens spell is brief. -/
theorem Spells.isBrief {tokens : List Token} {block : Block} (spelled : Spells tokens block)
    (brief : AreBrief tokens) : block.IsBrief := by
  revert brief
  refine @Spells.rec
    (fun piece s _ => AreBrief piece → ∀ next : Block, next.IsBrief → (Block.cons s next).IsBrief)
    (fun tokens block _ => AreBrief tokens → block.IsBrief) ?_ ?_ ?_ ?_ ?_ ?_ tokens block spelled
  · intro marked token action known brief next rest
    have here := brief.2 token (List.mem_singleton_self token)
    exact ⟨here.1, here.2, isBrief_of_action? known, rest⟩
  · intro value opening number marked bar kind counts brief next rest
    have here := brief.2 opening List.mem_cons_self
    exact ⟨here.1, here.2, pushValue_byte counts, rest⟩
  · intro middle body marked opening closing opens spelled closes holds brief next rest
    have here := brief.2 opening List.mem_cons_self
    have inside : AreBrief middle := brief.sublist (by simp)
    exact ⟨here.1, here.2, Nat.lt_of_le_of_lt spelled.length_le inside.1, holds inside, rest⟩
  · intro target opening word marked io kind named brief next rest
    have here := brief.2 opening List.mem_cons_self
    exact ⟨here.1, here.2, trivial, rest⟩
  · intro brief
    trivial
  · intro debugs piece s tokens next marks spoken marked rest first later brief
    exact first (brief.sublist (by simp)) next (later (brief.sublist (by simp)))

/-- What a text that is no longer than a text can be parses to is brief. -/
theorem brief_of_parse {source : List Char} {program : Block}
    (parsed : Block.parse source = .ok program) (short : source.length < Text.sizeLimit) :
    program.IsBrief := by
  obtain ⟨few, near⟩ := tokens_within source
  refine (spells_of_parse parsed).isBrief ⟨?_, fun token member => ?_⟩
  · unfold IsBrief
    omega
  · obtain ⟨line, column⟩ := near token member
    unfold IsBrief
    omega

end Source

/-! ## Snapshots -/

theorem isShort_of_isBrief {n : Nat} (brief : Source.IsBrief n) : Json.IsShort n := by
  apply Json.isShort_of_natAbs_lt 20 (by decide)
  unfold Source.IsBrief Text.sizeLimit at brief
  rw [Int.natAbs_natCast]
  omega

theorem Source.Position.readable_fields {p : Source.Position} (line : Source.IsBrief p.line)
    (column : Source.IsBrief p.column) : (Json.object p.fields).Readable :=
  ⟨(by decide : [Text.ofString "line", Text.ofString "column"].Nodup), Text.ofString_isScalar _,
    isShort_of_isBrief line, Text.ofString_isScalar _, isShort_of_isBrief column, trivial⟩

namespace Machine

open Source (Block Header Statement)

variable {m : Machine} {s : Statement} {next : Block}

/-- What a statement shows of itself is read back: three fields, and what is particular to its kind. -/
theorem readable_fields (s : Statement) (line : Source.IsBrief s.head.position.line)
    (column : Source.IsBrief s.head.position.column)
    (value : ∀ head value, s = .act head (.push value) → 0 ≤ value ∧ value < 256)
    (length : ∀ head body, s = .loop head body → Source.IsBrief body.length) :
    (Json.object s.fields).Readable := by
  have named (name : String) := Text.ofString_isScalar name
  have position := Source.Position.readable_fields line column
  have alone : [Text.ofString "type", Text.ofString "position", Text.ofString "marked"].Nodup := by
    decide
  cases s with
  | act head action =>
    cases action with
    | increment | decrement | moveRight | moveLeft | clear | output | input | none =>
      exact ⟨alone, named _, named _, named _, position, named _, trivial, trivial⟩
    | push value' =>
      have nodup : [Text.ofString "type", Text.ofString "position", Text.ofString "marked",
          Text.ofString "value"].Nodup := by
        decide
      obtain ⟨low, high⟩ := value head value' rfl
      have short : Json.IsShort value' := Json.isShort_of_natAbs_lt 3 (by decide) (by omega)
      exact ⟨nodup, named _, named _, named _, position, named _, trivial, named _, short, trivial⟩
    | switch target =>
      have nodup : [Text.ofString "type", Text.ofString "position", Text.ofString "marked",
          Text.ofString "target"].Nodup := by
        decide
      exact ⟨nodup, named _, named _, named _, position, named _, trivial, named _, named _, trivial⟩
  | loop head body =>
    have nodup : [Text.ofString "type", Text.ofString "position", Text.ofString "marked",
        Text.ofString "body"].Nodup := by
      decide
    have short : Json.IsShort body.length := isShort_of_isBrief (length head body rfl)
    exact ⟨nodup, named _, named _, named _, position, named _, trivial, named _, short, trivial⟩

theorem readable_statement {block : Block} (brief : block.IsBrief)
    (first : block.uncons? = some (s, next)) :
    (Json.object s.fields).Readable ∧ (Json.object s.head.position.fields).Readable := by
  cases block with
  | nil => simp [Block.uncons?] at first
  | act head action rest =>
    obtain ⟨rfl, rfl⟩ := Prod.mk.inj (Option.some.inj first)
    obtain ⟨line, column, action', -⟩ := brief
    refine ⟨readable_fields _ line column ?_ (by simp), Source.Position.readable_fields line column⟩
    rintro head' value same
    obtain ⟨rfl, rfl⟩ := Statement.act.inj same
    exact action'
  | loop head body rest =>
    obtain ⟨rfl, rfl⟩ := Prod.mk.inj (Option.some.inj first)
    obtain ⟨line, column, length, -⟩ := brief
    refine ⟨readable_fields _ line column (by simp) ?_, Source.Position.readable_fields line column⟩
    rintro head' body' same
    obtain ⟨rfl, rfl⟩ := Statement.loop.inj same
    exact length

/-- What a machine shows when it pauses is read back. -/
theorem sound_snapshot (brief : m.frame.rest.IsBrief) (inside : m.tape.InBounds)
    (size : m.tape.size = Tape.standardSize) (first : m.frame.rest.uncons? = some (s, next)) :
    (Debug.ServerMessage.state (m.snapshot s)).Sound := by
  obtain ⟨statement, position⟩ := readable_statement brief first
  refine ⟨statement, position, ?_, ?_⟩
  · apply Json.isShort_of_natAbs_lt 5 (by decide)
    rw [snapshot, Int.natAbs_natCast]
    have bound : m.tape.cursor < m.tape.size := inside
    rw [size, Tape.standardSize] at bound
    omega
  · intro n member
    obtain ⟨cell, -, rfl⟩ := List.mem_map.mp member
    have small := cell.toNat_lt
    omega

end Machine
end TapeLang

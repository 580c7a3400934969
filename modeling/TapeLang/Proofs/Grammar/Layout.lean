import TapeLang.Proofs.Grammar.Violations
import TapeLang.Source.Printer

/-!
Layout. White space is no part of a token, so between two characters that no token joins it may stand
in any amount: the scanner comes out of it with its run closed, and the next character would have closed
the run in the same way (`Scanner.Alike`). The parser looks at positions only to pass them on, so texts
whose tokens are the same up to positions are read as the same program or refused for the same reason
(`layout_free`).
-/
namespace TapeLang.Source

/-! ## White space -/

/-- White space is not alphanumeric. -/
theorem not_isAlphanumeric_of_isBlank {n : Nat} (blank : Text.isBlank n = true) :
    Text.isAlphanumeric n = false := by
  have apart : ∀ r ∈ Text.blanks, ∀ k < r.2 + 1 - r.1, Text.isAlphanumeric (r.1 + k) = false := by
    decide +kernel
  obtain ⟨r, member, lower, upper⟩ := Text.Ranges.exists_mem_of_has blank
  have inside := apart r member (n - r.1) (by omega)
  rwa [Nat.add_sub_cancel' lower] at inside

theorem isBlankChar_space : isBlankChar ' ' = true := by decide

theorem not_isWordChar_of_isBlankChar {c : Char} (blank : isBlankChar c = true) :
    isWordChar c = false := by
  have underscore : c ≠ '_' := by
    rintro rfl
    exact absurd blank (by decide)
  simp [isWordChar, not_isAlphanumeric_of_isBlank blank, underscore]

namespace Scanner

variable {s t : Scanner} {c : Char}

theorem enter_blank (s : Scanner) (blank : isBlankChar c = true) : s.enter c = { s with run := .gap } := by
  have sign : instruction? c = none := by
    unfold instruction?
    split <;> first | rfl | exact absurd blank (by decide)
  have bar : c ≠ '|' := by
    rintro rfl
    exact absurd blank (by decide)
  simp [Scanner.enter, sign, bar, not_isWordChar_of_isBlankChar blank, blank]

/-- White space closes the run before it and changes nothing else. -/
theorem step_blank (s : Scanner) (blank : isBlankChar c = true) :
    s.step c = { s.closeRun with run := .gap, position := s.position.advance c } := by
  have noWord := not_isWordChar_of_isBlankChar blank
  have noDigit : isDigitChar c = false := by
    rw [Bool.eq_false_iff]
    intro digit
    rw [isWordChar_of_isDigitChar digit] at noWord
    contradiction
  unfold Scanner.step Scanner.read Scanner.closeRun
  cases s.run with
  | number position read =>
    by_cases none : read = [] <;> simp [noDigit, noWord, none, enter_blank _ blank]
  | _ => simp [noWord, enter_blank _ blank]

/-- Any amount of white space does what one blank does. -/
theorem foldl_blank {blanks : List Char} (some : blanks ≠ [])
    (blank : ∀ c ∈ blanks, isBlankChar c = true) :
    ∃ position, blanks.foldl step s = { s.closeRun with run := .gap, position } := by
  induction blanks generalizing s with
  | nil => exact absurd rfl some
  | cons c rest ih =>
    have first := s.step_blank (blank c (by simp))
    by_cases last : rest = []
    · exact ⟨s.position.advance c, by simp [last, first]⟩
    · obtain ⟨position, rest⟩ := ih (s := s.step c) last fun d member => blank d (by simp [member])
      exact ⟨position, by rw [List.foldl_cons, rest, first]; rfl⟩

end Scanner

/-! ## Runs and the next character -/

/-- Two characters that may belong to one token: two of a word, or a bar and a digit. -/
def Joined (c d : Char) : Prop :=
  (isWordChar c = true ∧ isWordChar d = true) ∨ (c = '|' ∧ isDigitChar d = true)

/-- A run that the next character belongs to. -/
inductive Run.Takes : Run → Char → Prop where
  | number (digit : isDigitChar d = true) : Takes (.number start chars) d
  | behind (begun : chars ≠ []) (word : isWordChar d = true) : Takes (.number start chars) d
  | word (word : isWordChar d = true) : Takes (.word start chars) d
  | tail (word : isWordChar d = true) : Takes .tail d

/-- What the last character is if a run goes on after it. -/
inductive Run.Follows : Run → Char → Prop where
  | gap : Follows .gap c
  | bar : Follows (.number start []) '|'
  | number (begun : chars ≠ []) (word : isWordChar c = true) : Follows (.number start chars) c
  | word (word : isWordChar c = true) : Follows (.word start chars) c
  | tail (word : isWordChar c = true) : Follows .tail c

/-- A run takes only characters that may join the last one. -/
theorem Run.Follows.joined {run : Run} {c d : Char} (follows : run.Follows c) (takes : run.Takes d) :
    Joined c d := by
  cases takes with
  | number digit =>
    cases follows with
    | bar => exact .inr ⟨rfl, digit⟩
    | number _ word => exact .inl ⟨word, isWordChar_of_isDigitChar digit⟩
  | behind begun word =>
    cases follows with
    | bar => exact absurd rfl begun
    | number _ before => exact .inl ⟨before, word⟩
  | word word =>
    cases follows with
    | word before => exact .inl ⟨before, word⟩
  | tail word =>
    cases follows with
    | tail before => exact .inl ⟨before, word⟩

namespace Scanner

variable {s t : Scanner} {c : Char}

theorem follows_enter (s : Scanner) (c : Char) : (s.enter c).run.Follows c := by
  unfold Scanner.enter
  split
  · exact .gap
  · split_ifs with bar word
    · exact bar ▸ .bar
    · exact .word word
    · exact .gap

theorem follows_step (s : Scanner) (c : Char) : (s.step c).run.Follows c := by
  change (s.read c).run.Follows c
  unfold Scanner.read
  split
  · exact s.follows_enter c
  · split_ifs with digit empty word
    · exact .number (by simp) (isWordChar_of_isDigitChar digit)
    · exact s.follows_enter c
    · exact .tail word
    · exact s.closeRun.follows_enter c
  · split_ifs with word
    · exact .word word
    · exact s.closeRun.follows_enter c
  next same =>
    split_ifs with word
    · exact same ▸ .tail word
    · exact s.follows_enter c

/-- A character that the run does not take closes it. -/
theorem read_of_not_takes (outside : ¬ s.run.Takes c) : s.read c = s.closeRun.enter c := by
  unfold Scanner.read Scanner.closeRun
  generalize s.run = run at outside
  cases run with
  | gap => rfl
  | number start read =>
    have noDigit : isDigitChar c ≠ true := fun digit => outside (.number digit)
    by_cases empty : read = []
    · simp [noDigit, empty]
    · have noWord : isWordChar c ≠ true := fun word => outside (.behind empty word)
      simp [noDigit, noWord, empty]
  | word start read =>
    have noWord : isWordChar c ≠ true := fun word => outside (.word word)
    simp [noWord]
  | tail =>
    have noWord : isWordChar c ≠ true := fun word => outside (.tail word)
    simp [noWord]

end Scanner

/-! ## Scanners that differ in positions -/

/-- A token without its position. -/
def Token.unplaced (token : Token) : Token := { token with position := {} }

/-- Runs that have read the same. -/
inductive Run.Alike : Run → Run → Prop where
  | gap : Alike .gap .gap
  | number : Alike (.number start chars) (.number start' chars)
  | word : Alike (.word start chars) (.word start' chars)
  | tail : Alike .tail .tail

/-- Scanners that differ only in positions. -/
structure Scanner.Alike (s t : Scanner) : Prop where
  run : s.run.Alike t.run
  expecting : s.expecting = t.expecting
  tokens : s.tokens.map Token.unplaced = t.tokens.map Token.unplaced

namespace Scanner

variable {s t : Scanner}

theorem Alike.closeRun (alike : s.Alike t) : s.closeRun.Alike t.closeRun := by
  obtain ⟨position, run, expecting, tokens⟩ := s
  obtain ⟨position', run', expecting', tokens'⟩ := t
  obtain ⟨runs, rfl, same⟩ := alike
  cases runs with
  | gap => exact ⟨.gap, rfl, same⟩
  | tail => exact ⟨.tail, rfl, same⟩
  | number =>
    unfold Scanner.closeRun
    dsimp only
    split_ifs
    · exact ⟨.number, rfl, same⟩
    · exact ⟨.number, rfl, by simpa [emit, Token.unplaced] using same⟩
  | word =>
    simp only [Scanner.closeRun, closeWord]
    split_ifs <;> exact ⟨.word, rfl, by simpa [emit, Token.unplaced] using same⟩

/-- What a character begins does not depend on positions, nor on the run before it. -/
theorem alike_enter (expecting : s.expecting = t.expecting)
    (tokens : s.tokens.map Token.unplaced = t.tokens.map Token.unplaced) (c : Char) :
    (s.enter c).Alike (t.enter c) := by
  unfold Scanner.enter
  split
  · exact ⟨.gap, rfl, by simpa [emit, Token.unplaced] using tokens⟩
  · split_ifs
    · exact ⟨.number, expecting, by simpa [emit, Token.unplaced] using tokens⟩
    · exact ⟨.word, expecting, tokens⟩
    · exact ⟨.gap, by simp [expecting], tokens⟩

theorem Alike.step (alike : s.Alike t) (c : Char) : (s.step c).Alike (t.step c) := by
  suffices read : (s.read c).Alike (t.read c) from ⟨read.run, read.expecting, read.tokens⟩
  have entered := alike_enter alike.expecting alike.tokens c
  have closed := alike_enter alike.closeRun.expecting alike.closeRun.tokens c
  have runs := alike.run
  unfold Scanner.read
  generalize begun : s.run = run at runs
  generalize begun' : t.run = run' at runs
  cases runs with
  | gap => exact entered
  | number =>
    dsimp only
    split_ifs
    · exact ⟨.number, alike.expecting, alike.tokens⟩
    · exact entered
    · exact ⟨.tail, rfl, alike.closeRun.tokens⟩
    · exact closed
  | word =>
    dsimp only
    split_ifs
    · exact ⟨.word, alike.expecting, alike.tokens⟩
    · exact closed
  | tail =>
    dsimp only
    split_ifs
    · exact alike
    · exact entered

theorem Alike.foldl (alike : s.Alike t) (text : List Char) :
    (text.foldl Scanner.step s).Alike (text.foldl Scanner.step t) := by
  induction text generalizing s t with
  | nil => exact alike
  | cons c text ih => exact ih (alike.step c)

theorem Alike.finish (alike : s.Alike t) : s.finish.map Token.unplaced = t.finish.map Token.unplaced := by
  rw [Scanner.finish, Scanner.finish, List.map_reverse, List.map_reverse, alike.closeRun.tokens]

/-- Behind white space the rest of a text is read as without it, unless it would have gone on with the
run. -/
theorem finish_blank {blanks after : List Char} (blank : ∀ c ∈ blanks, isBlankChar c = true)
    (outside : ∀ c ∈ after.head?, ¬ s.run.Takes c) :
    ((blanks ++ after).foldl step s).finish.map Token.unplaced =
      (after.foldl step s).finish.map Token.unplaced := by
  by_cases none : blanks = []
  · rw [none, List.nil_append]
  obtain ⟨position, passed⟩ := s.foldl_blank none blank
  rw [List.foldl_append, passed]
  cases after with
  | nil => rfl
  | cons c rest =>
    have first : Alike ({ s.closeRun with run := .gap, position }.step c) (s.step c) := by
      have entered : Alike ({ s.closeRun with run := .gap, position }.enter c) (s.closeRun.enter c) :=
        alike_enter (s := { s.closeRun with run := .gap, position }) (t := s.closeRun) rfl rfl c
      rw [← read_of_not_takes (outside c rfl)] at entered
      exact ⟨entered.run, entered.expecting, entered.tokens⟩
    exact (first.foldl rest).finish

end Scanner

/-- A place in a source that no token can lie across. -/
def Seam (source : List Char) (place : Nat) : Prop :=
  ∀ c ∈ (source.take place).getLast?, ∀ d ∈ (source.drop place).head?, ¬ Joined c d

theorem Seam.outside {source : List Char} {place : Nat} (seam : Seam source place) :
    ∀ d ∈ (source.drop place).head?,
      ¬ ((source.take place).foldl Scanner.step Scanner.start).run.Takes d := by
  intro d next takes
  rcases List.eq_nil_or_concat (source.take place) with none | ⟨before, c, some⟩
  · rw [none] at takes
    cases takes
  · rw [List.concat_eq_append] at some
    rw [some, List.foldl_append] at takes
    refine seam c ?_ d next ((Scanner.follows_step _ c).joined takes)
    simp [some]

/-- White space at a seam leaves the kinds and characters of all tokens as they are. -/
theorem tokenize_blank {source blanks : List Char} {place : Nat} (seam : Seam source place)
    (blank : ∀ c ∈ blanks, isBlankChar c = true) :
    (tokenize (source.take place ++ blanks ++ source.drop place)).map Token.unplaced =
      (tokenize source).map Token.unplaced := by
  have whole := Scanner.finish_blank (s := (source.take place).foldl Scanner.step Scanner.start) blank
    seam.outside
  rw [← List.foldl_append, ← List.foldl_append, List.take_append_drop, ← List.append_assoc] at whole
  exact whole

/-! ## The parser -/

/-- A statement without its positions. -/
def Statement.unplaced : Statement → Statement
  | .act head action => .act { head with position := {} } action
  | .loop head body => .loop { head with position := {} } body.unplaced

/-- An open loop without its positions. -/
def OpenLoop.unplaced (loop : OpenLoop) : OpenLoop :=
  ⟨{ loop.head with position := {} }, loop.before.map Statement.unplaced⟩

/-- The reason of a refusal, without the position. -/
def ParseError.unplaced : ParseError → ParseError
  | .malformed fault _ => .malformed fault {}
  | .numeral fault => .numeral fault

/-- What the parser says of a text, without positions. -/
def verdict : Except ParseError Block → Except ParseError Block
  | .ok program => .ok program.unplaced
  | .error error => .error error.unplaced

theorem Block.unplaced_prependReversed (next : Block) (before : List Statement) :
    (prependReversed next before).unplaced =
      prependReversed next.unplaced (before.map Statement.unplaced) := by
  induction before generalizing next with
  | nil => rfl
  | cons statement before ih =>
    rw [prependReversed, ih, List.map_cons, prependReversed]
    cases statement <;> rfl

theorem Block.unplaced_ofReversed (done : List Statement) :
    (ofReversed done).unplaced = ofReversed (done.map Statement.unplaced) :=
  unplaced_prependReversed .nil done

/-- The parser reads tokens without positions as it reads the tokens, positions aside. -/
theorem parseFrom_unplaced (opened : List OpenLoop) (done : List Statement) (mark : Option Position)
    (tokens : List Token) :
    parseFrom (opened.map OpenLoop.unplaced) (done.map Statement.unplaced) (mark.map fun _ => {})
        (tokens.map Token.unplaced) =
      verdict (parseFrom opened done mark tokens) := by
  fun_induction parseFrom opened done mark tokens with
  | case1 | case3 | case5 | case6 | case9 | case11 | case12 | case13 | case16 =>
    simp_all [parseFrom, verdict, ParseError.unplaced, Token.unplaced, OpenLoop.unplaced]
  | case2 done => exact congrArg Except.ok (Block.unplaced_ofReversed done).symm
  | case4 opened done mark token rest kind ih =>
    have kind' : token.unplaced.kind = .debug := kind
    rw [List.map_cons, parseFrom_debug _ _ _ _ kind']
    exact ih
  | case7 done token rest kind loop outer ih =>
    have kind' : token.unplaced.kind = .loopClose := kind
    rw [List.map_cons, List.map_cons, Option.map_none, parseFrom_close _ _ _ kind']
    rw [List.map_cons, Statement.unplaced, Block.unplaced_ofReversed] at ih
    exact ih
  | case8 opened done mark token rest head kind ih =>
    have kind' : token.unplaced.kind = .loopOpen := kind
    rw [List.map_cons, parseFrom_open _ _ _ _ kind', Option.isSome_map]
    exact ih
  | case10 opened done mark token head kind number rest numeral value counts ih =>
    have kind' : token.unplaced.kind = .bar := kind
    have numeral' : number.unplaced.kind = .number := numeral
    rw [List.map_cons, List.map_cons, parseFrom_push _ _ _ _ kind' numeral' counts, Option.isSome_map]
    exact ih
  | case14 opened done mark token head kind word rest name isWord target named ih =>
    have kind' : token.unplaced.kind = .io := kind
    have isWord' : word.unplaced.kind = .word := isWord
    rw [List.map_cons, List.map_cons, parseFrom_switch _ _ _ _ kind' isWord' named, Option.isSome_map]
    exact ih
  | case15 opened done mark token kind word rest name isWord unknown =>
    rw [List.map_cons, List.map_cons, parseFrom.eq_def]
    simp_all [verdict, ParseError.unplaced, Token.unplaced, name]
  | case17 opened done mark token rest head action _ _ _ _ _ known ih =>
    have known' : token.unplaced.kind.action? = some action := known
    rw [List.map_cons, parseFrom_action _ _ _ _ known', Option.isSome_map]
    exact ih
  | case18 opened done mark token rest =>
    rw [List.map_cons, parseFrom.eq_def]
    obtain ⟨kind, lexeme, position⟩ := token
    cases kind <;> simp_all [verdict, ParseError.unplaced, Token.unplaced, TokenKind.action?]

/-- Tokens that differ only in positions get the same verdict. -/
theorem verdict_ofTokens {tokens tokens' : List Token}
    (same : tokens.map Token.unplaced = tokens'.map Token.unplaced) :
    verdict (Block.ofTokens tokens) = verdict (Block.ofTokens tokens') := by
  have first := parseFrom_unplaced [] [] none tokens
  have second := parseFrom_unplaced [] [] none tokens'
  rw [Block.ofTokens, Block.ofTokens, ← first, ← second, same]

/-- White space between characters that no token joins changes only positions: the tokens have the same
kinds and characters, and the text is read as the same program or refused for the same reason. -/
theorem layout_free (source blanks : List Char) (place : Nat) (seam : Seam source place)
    (blank : ∀ c ∈ blanks, isBlankChar c = true) :
    (tokenize (source.take place ++ blanks ++ source.drop place)).map
        (fun token => (token.kind, token.lexeme)) =
      (tokenize source).map (fun token => (token.kind, token.lexeme)) ∧
    verdict (Block.parse (source.take place ++ blanks ++ source.drop place)) =
      verdict (Block.parse source) := by
  have same := tokenize_blank seam blank
  refine ⟨?_, verdict_ofTokens same⟩
  have contents := congrArg (List.map fun token => (token.kind, token.lexeme)) same
  rwa [List.map_map, List.map_map] at contents

theorem layout_free_io :
    ∃ source blanks : List Char, source = "io http[|7]".toList ∧ blanks = "\n\t ".toList ∧
      Seam source 3 ∧ (∀ c ∈ blanks, isBlankChar c = true) ∧
      verdict (Block.parse (source.take 3 ++ blanks ++ source.drop 3)) =
        verdict (Block.parse source) := by
  let source := ['i', 'o', ' ', 'h', 't', 't', 'p', '[', '|', '7', ']']
  let blanks := ['\n', '\t', ' ']
  have blank : ∀ c ∈ blanks, isBlankChar c = true := List.all_eq_true.mp (by decide)
  have seam : Seam source 3 := by
    rintro c ⟨⟩ d ⟨⟩ (⟨word, -⟩ | ⟨bar, -⟩)
    · exact absurd word (by decide)
    · exact absurd bar (by decide)
  exact ⟨source, blanks, rfl, rfl, seam, blank, (layout_free source blanks 3 seam blank).2⟩

end TapeLang.Source

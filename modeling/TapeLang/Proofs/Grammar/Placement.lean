import Mathlib.Data.List.Forall2
import TapeLang.Proofs.Grammar
import TapeLang.Proofs.Grammar.Order

/-!
Where tokens and statements stand. A token is laid where the text before it ends: its characters are
the next ones of the source, and its position counts the lines and columns of that text
(`Laid`). The scanner lays one token after the other, never over the last, and a statement stands where
the first token of its notation does (`positions_exact`).
-/
namespace TapeLang.Source

/-! ## Positions of texts -/

/-- Where a text ends: one line for every newline in it, and one column for every character since the
last of them. -/
def Position.after (text : List Char) : Position :=
  ⟨text.count '\n' + 1, (text.reverse.takeWhile (· != '\n')).length + 1⟩

theorem Position.after_append_singleton (text : List Char) (c : Char) :
    after (text ++ [c]) = (after text).advance c := by
  by_cases newline : c = '\n' <;> simp [after, advance, newline]

/-- A longer text ends later. -/
theorem Position.after_before (text : List Char) {more : List Char} (longer : more ≠ []) :
    (after text).Before (after (text ++ more)) := by
  induction more generalizing text with
  | nil => exact absurd rfl longer
  | cons c more ih =>
    have first : (after text).Before (after (text ++ [c])) :=
      after_append_singleton text c ▸ before_advance (after text) c
    by_cases empty : more = []
    · simpa [empty] using first
    · have rest := ih (text ++ [c]) empty
      rw [List.append_assoc, List.singleton_append] at rest
      exact first.trans rest

/-! ## Tokens -/

/-- The characters that a kind of token is made of. -/
inductive TokenKind.Spelled : TokenKind → List Char → Prop where
  | instruction (known : instruction? c = some kind) : Spelled kind [c]
  | bar : Spelled .bar ['|']
  | number (nonempty : digits ≠ []) : Spelled .number digits
  | debug : Spelled .debug ['d', 'e', 'b', 'u', 'g']
  | io : Spelled .io ['i', 'o']
  | word (nonempty : letters ≠ []) : Spelled .word letters

theorem TokenKind.Spelled.ne_nil {kind : TokenKind} (spelled : kind.Spelled lexeme) : lexeme ≠ [] := by
  cases spelled <;> first | assumption | simp

/-- Tokens, newest first, that lie in a text one after the other. -/
inductive Laid : List Char → List Token → Prop where
  | nil : Laid text []
  | cons (laid : Laid before tokens) (spelled : token.kind.Spelled token.lexeme)
      (position : token.position = .after before) :
      Laid (before ++ token.lexeme ++ more) (token :: tokens)

theorem Laid.append (laid : Laid text tokens) (more : List Char) : Laid (text ++ more) tokens := by
  cases laid with
  | nil => exact .nil
  | cons laid spelled position => simpa using Laid.cons laid spelled position

/-- The next token, at the end of the text. -/
theorem Laid.emit (laid : Laid before tokens) {kind : TokenKind} (spelled : kind.Spelled lexeme) :
    Laid (before ++ lexeme) (⟨kind, lexeme, .after before⟩ :: tokens) := by
  let token : Token := ⟨kind, lexeme, .after before⟩
  have next : Laid (before ++ token.lexeme ++ []) (token :: tokens) := .cons laid spelled rfl
  simpa [token] using next

theorem Laid.spelled (laid : Laid text tokens) (member : token ∈ tokens) :
    token.kind.Spelled token.lexeme := by
  induction laid with
  | nil => simp at member
  | cons _ spelled _ ih =>
    rcases List.mem_cons.mp member with rfl | earlier
    · exact spelled
    · exact ih earlier

/-! ## The scanner -/

/-- The texts before and after the characters that a run has read. -/
inductive Run.Begun : List Char → List Char → Run → Prop where
  | gap : Begun text text .gap
  | tail : Begun text text .tail
  | number {read : List Char} : Begun before (before ++ read.reverse) (.number (.after before) read)
  | word {read : List Char} (nonempty : read ≠ []) :
      Begun before (before ++ read.reverse) (.word (.after before) read)

/-- A scanner whose tokens lie before its run, in the text read. -/
def Scanner.Lays (s : Scanner) (text : List Char) : Prop :=
  ∃ before, s.run.Begun before text ∧ Laid before s.tokens

variable {s : Scanner} {text : List Char}

/-- Closing the run lays at most one token, over the characters of the run. -/
theorem Scanner.Lays.closeRun (lays : s.Lays text) : Laid text s.closeRun.tokens := by
  obtain ⟨position, run, expecting, tokens⟩ := s
  obtain ⟨before, begun, laid⟩ := lays
  cases begun with
  | gap => exact laid
  | tail => exact laid
  | @number read =>
    unfold Scanner.closeRun
    by_cases empty : read = []
    · simpa [empty] using laid
    · simpa [empty, Scanner.emit] using laid.emit (.number (by simpa using empty))
  | @word read nonempty =>
    simp only [Scanner.closeRun, Scanner.closeWord]
    split_ifs with waits debug io
    · exact laid.emit (.word (by simpa using nonempty))
    · rw [debug]
      exact laid.emit .debug
    · rw [io]
      exact laid.emit .io
    · exact laid.append read.reverse

theorem Scanner.closeRun_position (s : Scanner) : s.closeRun.position = s.position := by
  unfold Scanner.closeRun
  split
  · rfl
  · rfl
  · split_ifs <;> rfl
  · unfold Scanner.closeWord
    split_ifs <;> rfl

/-- A character that belongs to no run is laid as a token, begins a run, or is left out. -/
theorem Scanner.lays_enter (laid : Laid text s.tokens) (position : s.position = .after text)
    (c : Char) : (s.enter c).Lays (text ++ [c]) := by
  unfold Scanner.enter
  split
  next kind known => exact ⟨text ++ [c], .gap, position ▸ laid.emit (.instruction known)⟩
  next =>
    split_ifs with bar
    · refine ⟨text ++ [c], ?_, position ▸ laid.emit (bar ▸ .bar)⟩
      rw [position, ← Position.after_append_singleton]
      simpa using @Run.Begun.number (text ++ [c]) []
    · exact ⟨text, position ▸ .word (List.cons_ne_nil c []), laid⟩
    · exact ⟨text ++ [c], .gap, laid.append [c]⟩

theorem Scanner.Lays.read (lays : s.Lays text) (position : s.position = .after text) (c : Char) :
    (s.read c).Lays (text ++ [c]) := by
  have closed : (s.closeRun.enter c).Lays (text ++ [c]) :=
    lays_enter lays.closeRun (s.closeRun_position.trans position) c
  have closing := lays.closeRun
  obtain ⟨before, begun, laid⟩ := lays
  unfold Scanner.read
  generalize same : s.run = run at begun
  cases begun with
  | gap => exact lays_enter laid position c
  | tail =>
    dsimp only
    split_ifs
    · exact ⟨text ++ [c], same ▸ .tail, laid.append [c]⟩
    · exact lays_enter laid position c
  | @number read =>
    dsimp only
    split_ifs with digit empty
    · refine ⟨before, ?_, laid⟩
      simpa using @Run.Begun.number before (c :: read)
    · subst empty
      simp only [List.reverse_nil, List.append_nil] at position ⊢
      exact lays_enter laid position c
    · exact ⟨_, .tail, closing.append [c]⟩
    · exact closed
  | @word read nonempty =>
    dsimp only
    split_ifs
    · refine ⟨before, ?_, laid⟩
      simpa using @Run.Begun.word before (c :: read) (by simp)
    · exact closed

/-- A scanner that has read a text. -/
structure Scanner.HasRead (s : Scanner) (text : List Char) : Prop where
  position : s.position = .after text
  lays : s.Lays text

theorem Scanner.HasRead.step (hasRead : s.HasRead text) (c : Char) : (s.step c).HasRead (text ++ [c]) where
  position := by rw [Scanner.step, hasRead.position, Position.after_append_singleton]
  lays := hasRead.lays.read hasRead.position c

theorem Scanner.HasRead.foldl (hasRead : s.HasRead text) (more : List Char) :
    (more.foldl Scanner.step s).HasRead (text ++ more) := by
  induction more generalizing s text with
  | nil => simpa using hasRead
  | cons c more ih => simpa using ih (hasRead.step c)

/-- The tokens of a text lie in it. -/
theorem laid_tokenize (source : List Char) : Laid source (tokenize source).reverse := by
  have start : Scanner.start.HasRead [] := ⟨rfl, [], .gap, .nil⟩
  rw [tokenize, Scanner.finish, List.reverse_reverse]
  exact (start.foldl source).lays.closeRun

/-! ## Places -/

/-- The token whose characters are the next ones of a source, and whose position is where the text
before them ends. -/
structure Token.StandsAt (token : Token) (source : List Char) (offset : Nat) : Prop where
  nonempty : token.lexeme ≠ []
  slice : token.lexeme <+: source.drop offset
  position : token.position = .after (source.take offset)

variable {token : Token} {source : List Char} {offset : Nat}

theorem Token.StandsAt.fits (stands : token.StandsAt source offset) :
    offset + token.lexeme.length ≤ source.length := by
  have short := stands.slice.length_le
  have some := List.length_pos_iff.mpr stands.nonempty
  rw [List.length_drop] at short
  omega

theorem Token.StandsAt.append (stands : token.StandsAt source offset) (more : List Char) :
    token.StandsAt (source ++ more) offset where
  nonempty := stands.nonempty
  slice := by
    rw [List.drop_append_of_le_length (by have := stands.fits; omega)]
    exact stands.slice.trans (List.prefix_append _ _)
  position := by
    rw [List.take_append_of_le_length (by have := stands.fits; omega)]
    exact stands.position

/-- Tokens that lie in a text stand at offsets, each behind the characters of the one before. -/
theorem Laid.places (laid : Laid text tokens) :
    ∃ places : List (Nat × Token), places.map Prod.snd = tokens.reverse ∧
      (∀ place ∈ places, place.2.StandsAt text place.1) ∧
      places.Pairwise fun first next => first.1 + first.2.lexeme.length ≤ next.1 := by
  induction laid with
  | nil => exact ⟨[], rfl, by simp, .nil⟩
  | @cons before tokens more token laid spelled position ih =>
    obtain ⟨places, all, stand, apart⟩ := ih
    refine ⟨places ++ [(before.length, token)], by simp [all], ?_, ?_⟩
    · intro place member
      rcases List.mem_append.mp member with earlier | last
      · rw [List.append_assoc]
        exact (stand place earlier).append _
      · rw [List.mem_singleton.mp last]
        exact ⟨spelled.ne_nil, by simp, by simpa using position⟩
    · refine List.pairwise_append.mpr ⟨apart, by simp, fun place member last same => ?_⟩
      rw [List.mem_singleton.mp same]
      exact (stand place member).fits

/-- Of two tokens that stand in a text, the one behind the other has the later position. -/
theorem Token.StandsAt.before {next : Token} {behind : Nat} (stands : token.StandsAt source offset)
    (follows : next.StandsAt source behind) (apart : offset + token.lexeme.length ≤ behind) :
    token.position.Before next.position := by
  have some := List.length_pos_iff.mpr stands.nonempty
  have within := follows.fits
  have longer : (source.take behind).drop offset ≠ [] := by
    apply List.ne_nil_of_length_pos
    rw [List.length_drop, List.length_take]
    omega
  have split : source.take behind = source.take offset ++ (source.take behind).drop offset := by
    conv_lhs => rw [← List.take_append_drop offset (source.take behind)]
    rw [List.take_take, Nat.min_eq_left (by omega)]
  rw [stands.position, follows.position, split]
  exact Position.after_before _ longer

/-! ## Statements -/

/-- Whether a kind of token is the first of a statement's notation. -/
def TokenKind.opens (kind : TokenKind) : Bool :=
  kind.action?.isSome || kind ∈ [.bar, .loopOpen, .io]

/-- The characters that the notation of an action begins with. An action without a meaning has
none. -/
def Action.sign : Action → List Char
  | .increment => ['+']
  | .decrement => ['-']
  | .moveRight => ['>']
  | .moveLeft => ['<']
  | .clear => ['*']
  | .output => ['.']
  | .input => [',']
  | .push _ => ['|']
  | .switch _ => ['i', 'o']
  | .none => []

/-- The characters that the notation of a statement begins with. -/
def Statement.sign : Statement → List Char
  | .act _ action => action.sign
  | .loop _ _ => ['[']

/-- A token that is the beginning of a statement, at its position. -/
def Token.Begins (token : Token) (s : Statement) : Prop :=
  token.position = s.head.position ∧ token.lexeme = s.sign

/-- An instruction is one character; of the other signs there is one each. -/
theorem TokenKind.Spelled.sign {kind : TokenKind} (spelled : kind.Spelled lexeme) :
    (∀ action, kind.action? = some action → lexeme = action.sign) ∧
      (kind = .loopOpen → lexeme = ['[']) ∧ (kind = .bar → lexeme = ['|']) ∧
      (kind = .io → lexeme = ['i', 'o']) := by
  cases spelled with
  | instruction known =>
    unfold instruction? at known
    split at known <;> simp only [Option.some.injEq, reduceCtorEq] at known <;> subst known <;>
      simp [TokenKind.action?, Action.sign]
  | _ => simp [TokenKind.action?]

theorem Marks.filter_opens (marks : Marks debugs) : debugs.filter (·.kind.opens) = [] := by
  rw [List.filter_eq_nil_iff]
  intro token member
  rw [marks token member]
  decide

theorem Block.walkFrom_cons (index : Nat) (around : Site) (statement : Statement) (next : Block) :
    walkFrom index around (.cons statement next) =
      walkFrom index around (.cons statement .nil) ++ walkFrom (index + 1) around next := by
  cases statement <;> simp [Block.cons, walkFrom]

/-- The tokens that begin statements are, one by one, those of the statements of the block, depth
first. -/
def Opening (tokens : List Token) (block : Block) : Prop :=
  (∀ token ∈ tokens, token.kind.Spelled token.lexeme) → ∀ index around,
    List.Forall₂ Token.Begins (tokens.filter (·.kind.opens))
      ((block.walkFrom index around).map Prod.snd)

/-- An action whose tokens are one that begins it and others that begin nothing. -/
theorem opening_act {head : Header} {action : Action} {more : List Token}
    (opens : token.kind.opens = true) (rest : more.filter (·.kind.opens) = [])
    (position : token.position = head.position)
    (sign : token.kind.Spelled token.lexeme → token.lexeme = action.sign) :
    Opening (token :: more) (.act head action .nil) := by
  intro spelled index around
  have begins : token.Begins (.act head action) := ⟨position, sign (spelled token (by simp))⟩
  simpa [opens, rest, Block.walkFrom] using begins

theorem opening_loop {head : Header} {opening closing : Token} (opens : opening.kind = .loopOpen)
    (closes : closing.kind = .loopClose) (position : opening.position = head.position)
    (within : Opening middle body) :
    Opening (opening :: middle ++ [closing]) (.loop head body .nil) := by
  intro spelled index around
  have begins : opening.Begins (.loop head body) :=
    ⟨position, (spelled opening (by simp)).sign.2.1 opens⟩
  have inner := within (fun token member => spelled token (by simp [member])) 0 (index :: around)
  have first : opening.kind.opens = true := by rw [opens]; decide
  have last : closing.kind.opens = false := by rw [closes]; decide
  simpa [first, last, Block.walkFrom, List.filter_append] using And.intro begins inner

theorem opening_cons {s : Statement} (marks : Marks debugs) (first : Opening piece (.cons s .nil))
    (rest : Opening tokens next) : Opening (debugs ++ (piece ++ tokens)) (.cons s next) := by
  intro spelled index around
  rw [Block.walkFrom_cons, List.map_append, List.filter_append, List.filter_append, marks.filter_opens,
    List.nil_append]
  exact List.rel_append (first (fun token member => spelled token (by simp [member])) index around)
    (rest (fun token member => spelled token (by simp [member])) (index + 1) around)

theorem Spells.opening (spelled : Spells tokens block) : Opening tokens block := by
  refine @Spells.rec (fun piece s _ => Opening piece (.cons s .nil))
    (fun tokens block _ => Opening tokens block) ?simple ?push ?loop ?switch ?nil ?cons
    tokens block spelled
  case simple =>
    intro marked token action known
    exact opening_act (by simp [TokenKind.opens, known]) rfl rfl (fun spelled => spelled.sign.1 action known)
  case push =>
    intro bar number value marked kind numeral _
    exact opening_act (by simp [kind, TokenKind.opens])
      (by simp [numeral, TokenKind.opens, TokenKind.action?]) rfl (fun spelled => spelled.sign.2.2.1 kind)
  case loop =>
    intro middle body marked opening closing opens _ closes within
    exact opening_loop opens closes rfl within
  case switch =>
    intro io word target marked kind name _
    exact opening_act (by simp [kind, TokenKind.opens])
      (by simp [name, TokenKind.opens, TokenKind.action?]) rfl (fun spelled => spelled.sign.2.2.2 kind)
  case nil => exact fun _ _ _ => .nil
  case cons =>
    intro debugs piece s tokens next marks _ _ _ first rest
    exact opening_cons marks first rest

/-! ## The source -/

/-- Statements that begin with tokens at ever later positions have ever later positions. -/
theorem before_of_begins {tokens : List Token} {statements : List Statement}
    (begins : List.Forall₂ Token.Begins tokens statements)
    (later : tokens.Pairwise fun token next => token.position.Before next.position) :
    (statements.map fun statement => statement.head.position).Pairwise Position.Before := by
  have same : statements.map (fun statement => statement.head.position) =
      tokens.map fun token => token.position := by
    induction begins with
    | nil => rfl
    | cons first _ ih => simp [first.1, ih (List.pairwise_cons.mp later).2]
  rw [same]
  exact List.pairwise_map.mpr later

/-- Tokens stand at offsets of their own, in the order of the text, and in a text that is a program the
statements begin, depth first, with the tokens that open a statement: each has the position of the first
character of its notation, and no two have the same. -/
theorem positions_exact (source : List Char) :
    ∃ places : List (Nat × Token),
      places.map Prod.snd = tokenize source ∧
      (∀ place ∈ places, place.2.StandsAt source place.1) ∧
      (places.Pairwise fun first next => first.1 + first.2.lexeme.length ≤ next.1) ∧
      ∀ program, Block.parse source = .ok program →
        List.Forall₂ (fun place statement => place.2.Begins statement)
          (places.filter (·.2.kind.opens)) (program.walk.map Prod.snd) ∧
        (program.walk.map (·.2.head.position)).Pairwise Position.Before ∧
        (program.walk.map (·.2.head.position)).Nodup := by
  have laid := laid_tokenize source
  obtain ⟨places, all, stand, apart⟩ := laid.places
  rw [List.reverse_reverse] at all
  refine ⟨places, all, stand, apart, fun program parsed => ?_⟩
  have spelled : ∀ token ∈ tokenize source, token.kind.Spelled token.lexeme :=
    fun token member => laid.spelled (List.mem_reverse.mpr member)
  have begins := (spells_of_parse parsed).opening spelled 0 []
  have later : (places.map Prod.snd).Pairwise fun token next => token.position.Before next.position := by
    refine List.pairwise_map.mpr (apart.imp_of_mem fun first next behind => ?_)
    exact (stand _ first).before (stand _ next) behind
  have ordered := before_of_begins begins (all ▸ later.sublist List.filter_sublist)
  rw [List.map_map] at ordered
  refine ⟨?_, ordered, ordered.imp fun before same => ?_⟩
  · rw [← all, List.filter_map, List.forall₂_map_left_iff] at begins
    exact begins
  · exact Position.Before.irrefl _ (same ▸ before)

theorem positions_exact_lines : ∃ source program, source = "x\n[|7 io tcp]".toList ∧
    Block.parse source = .ok program ∧
      program.walk.map (·.2.head.position) = [⟨2, 1⟩, ⟨2, 2⟩, ⟨2, 5⟩] ∧
      ∃ places : List (Nat × Token), (∀ place ∈ places, place.2.StandsAt source place.1) ∧
        List.Forall₂ (fun place statement => place.2.Begins statement)
          (places.filter (·.2.kind.opens)) (program.walk.map Prod.snd) := by
  let source := ['x', '\n', '[', '|', '7', ' ', 'i', 'o', ' ', 't', 'c', 'p', ']']
  have tokens : tokenize source =
      [⟨.loopOpen, ['['], ⟨2, 1⟩⟩, ⟨.bar, ['|'], ⟨2, 2⟩⟩, ⟨.number, ['7'], ⟨2, 3⟩⟩,
        ⟨.io, ['i', 'o'], ⟨2, 5⟩⟩, ⟨.word, ['t', 'c', 'p'], ⟨2, 8⟩⟩, ⟨.loopClose, [']'], ⟨2, 11⟩⟩] := by
    decide
  have parsed : Block.parse source =
      .ok (.loop ⟨⟨2, 1⟩, false⟩ (.act ⟨⟨2, 2⟩, false⟩ (.push 7)
        (.act ⟨⟨2, 5⟩, false⟩ (.switch "tcp") .nil)) .nil) := by
    rw [Block.parse, tokens]
    rfl
  obtain ⟨places, -, stand, -, begun⟩ := positions_exact source
  exact ⟨source, _, rfl, parsed, rfl, places, stand, (begun _ parsed).1⟩

end TapeLang.Source

import TapeLang.Proofs.Grammar.Violations

/-!
Where statements begin. The parser takes a program mark by mark, bracket by bracket and action by action
(`Parsing.Next`), until it is at the end or refuses the text. A number is taken together with the bar
before it and a word together with its `io`, so the parser never comes to either where a statement is to
begin, and the refusal of a token that no statement begins with is given for no text.
-/
namespace TapeLang.Source

/-! ## Numbers and words among the tokens -/

/-- A number stands directly after a bar. -/
theorem Ordered.bar_before {token : Token} (ordered : Ordered (token :: before))
    (kind : token.kind = .number) : ∃ bar earlier, before = bar :: earlier ∧ bar.kind = .bar := by
  cases ordered with
  | number _ _ bar _ => exact ⟨_, _, rfl, bar⟩
  | word other _ _ => simp [kind] at other
  | other other _ => exact absurd kind other.1

theorem Ordered.expecting {token : Token} (ordered : Ordered (token :: before))
    (kind : token.kind = .word) : Expecting before := by
  cases ordered with
  | number other _ _ _ => simp [kind] at other
  | word _ expecting _ => exact expecting
  | other other _ => exact absurd kind other.2

/-- The nearest `io`, with nothing but bars and numbers after it. -/
theorem Expecting.io_before (expecting : Expecting before) :
    ∃ between io earlier, before = between ++ io :: earlier ∧ io.kind = .io ∧
      ∀ other ∈ between, other.kind = .bar ∨ other.kind = .number := by
  induction expecting with
  | io kind => exact ⟨[], _, _, rfl, kind, by simp⟩
  | @past _ token kind _ ih =>
    obtain ⟨between, io, earlier, rfl, isIo, only⟩ := ih
    exact ⟨token :: between, io, earlier, rfl, isIo, by simpa using ⟨kind, only⟩⟩

/-! ## The way of the parser -/

/-- Where the parser stands between two statements: the open loops, the statements of the current block,
the last mark that waits for its statement, and what is still to be read. -/
structure Parsing where
  opened : List OpenLoop := []
  done : List Statement := []
  mark : Option Position := none
  rest : List Token

namespace Parsing

/-- What the parser makes of the text from here. -/
def verdict (p : Parsing) : Except ParseError Block := parseFrom p.opened p.done p.mark p.rest

/-- The parser takes a mark, a bracket or an action. -/
inductive Next (p : Parsing) : Parsing → Prop where
  | mark {token : Token} (here : p.rest = token :: after) (kind : token.kind = .debug) :
      Next p { p with mark := some token.position, rest := after }
  | enter {token : Token} (here : p.rest = token :: after) (kind : token.kind = .loopOpen) :
      Next p ⟨⟨⟨token.position, p.mark.isSome⟩, p.done⟩ :: p.opened, [], none, after⟩
  | leave {token : Token} (here : p.rest = token :: after) (kind : token.kind = .loopClose)
      (unmarked : p.mark = none) (inside : p.opened = loop :: outer) :
      Next p ⟨outer, .loop loop.head (.ofReversed p.done) :: loop.before, none, after⟩
  | act (here : p.rest = piece ++ after) (spoken : Says piece (.act head action))
      (marked : head.marked = p.mark.isSome) :
      Next p ⟨p.opened, .act head action :: p.done, none, after⟩

/-- The places that the parser comes to in a list of tokens. -/
inductive Reached (tokens : List Token) : Parsing → Prop where
  | start : Reached tokens { rest := tokens }
  | next (reached : Reached tokens p) (next : p.Next q) : Reached tokens q

variable {p q : Parsing}

theorem Next.verdict (next : p.Next q) : q.verdict = p.verdict := by
  obtain ⟨opened, done, mark, rest⟩ := p
  cases next with
  | mark here kind =>
    cases here
    exact (parseFrom_debug _ _ _ _ kind).symm
  | enter here kind =>
    cases here
    exact (parseFrom_open _ _ _ _ kind).symm
  | leave here kind unmarked inside =>
    cases here
    cases unmarked
    cases inside
    exact (parseFrom_close _ _ _ kind _).symm
  | act here spoken marked =>
    cases here
    exact (spoken.parseFrom_eq _ _ _ _ marked).symm

theorem Reached.verdict (reached : Reached tokens p) : p.verdict = Block.ofTokens tokens := by
  induction reached with
  | start => rfl
  | next _ next ih => exact next.verdict.trans ih

/-- The parser goes on, unless it is at the end or refuses. -/
theorem goes_on (p : Parsing) : (∃ q, p.Next q) ∨ p.rest = [] ∨ ∃ e, p.verdict = .error e := by
  obtain ⟨opened, done, mark, rest⟩ := p
  unfold verdict
  fun_cases parseFrom opened done mark rest with
  | case2 => exact .inr (.inl rfl)
  | case4 _ _ _ _ kind => exact .inl ⟨_, .mark rfl kind⟩
  | case7 _ _ kind loop outer => exact .inl ⟨_, .leave rfl kind rfl rfl⟩
  | case8 _ _ _ _ _ kind => exact .inl ⟨_, .enter rfl kind⟩
  | case10 _ _ _ _ bar number _ numeral _ counts =>
    exact .inl ⟨_, .act rfl (.push bar numeral counts) rfl⟩
  | case14 _ _ _ _ io word _ _ isWord _ named =>
    exact .inl ⟨_, .act rfl (.switch io isWord named) rfl⟩
  | case17 _ _ token rest _ action _ _ _ _ _ known =>
    have here : token :: rest = [token] ++ rest := rfl
    exact .inl ⟨_, .act here (.simple known) rfl⟩
  | _ => exact .inr (.inr ⟨_, rfl⟩)

/-- What is before the parser is complete statements and open brackets, and the marks of the statement
that is to begin. -/
theorem Reached.stands (reached : Reached tokens p) :
    ∃ before opened debugs, Opens before opened ∧ Marks debugs ∧ p.mark = lastMark debugs ∧
      p.opened.map (·.head.position) = opened.map (·.position) ∧
      tokens = before ++ (debugs ++ p.rest) := by
  induction reached with
  | start => exact ⟨[], [], [], .top .nil, marks_nil, rfl, rfl, rfl⟩
  | @next p q _ next ih =>
    obtain ⟨before, opened, debugs, opens, marks, last, same, split⟩ := ih
    cases next with
    | @mark _ token here kind =>
      exact ⟨before, opened, debugs ++ [token], opens, marks.snoc kind, by simp [lastMark], same,
        by simp [split, here]⟩
    | enter here kind =>
      exact ⟨_, _, [], opens.enter marks kind, marks_nil, rfl, by simp [same], by simp [split, here]⟩
    | leave here kind unmarked inside =>
      obtain rfl := nil_of_lastMark (unmarked.symm.trans last)
      rw [inside] at same
      cases opened with
      | nil => simp at same
      | cons opening opened =>
        simp only [List.map_cons, List.cons.injEq] at same
        exact ⟨_, _, [], opens.close kind, marks_nil, rfl, same.2, by simp [split, here]⟩
    | act here spoken marked =>
      have marked' := marked.trans (last ▸ isSome_lastMark debugs)
      exact ⟨_, _, [], opens.say marks spoken marked', marks_nil, rfl, same, by simp [split, here]⟩

end Parsing

/-- In the tokens of a text every number stands directly after a bar, and between a word and the nearest
`io` before it are only bars and numbers. The parser therefore never comes to a number or a word where a
statement is to begin, wherever it stands before it is at the end or refuses the text, and never refuses
a text for a token that no statement begins with. -/
theorem statements_begin (source : List Char) :
    (∀ before token after, tokenize source = before ++ token :: after →
      (token.kind = .number → ∃ earlier bar, before = earlier ++ [bar] ∧ bar.kind = .bar) ∧
      (token.kind = .word → ∃ earlier io between, before = earlier ++ io :: between ∧
        io.kind = .io ∧ ∀ other ∈ between, other.kind = .bar ∨ other.kind = .number)) ∧
    (∀ p, Parsing.Reached (tokenize source) p →
      p.verdict = Block.parse source ∧
      ((∃ q, p.Next q) ∨ p.rest = [] ∨ ∃ e, p.verdict = .error e) ∧
      ∀ token ∈ p.rest.head?, token.kind ≠ .number ∧ token.kind ≠ .word) ∧
    ∀ kind position, Block.parse source ≠ .error (.malformed (.unexpected kind) position) := by
  have ordered := ordered_tokenize source
  refine ⟨?_, ?_, ?_⟩
  · intro before token after split
    have upTo : Ordered (token :: before.reverse) := by
      rw [split, List.reverse_append, List.reverse_cons, List.append_assoc] at ordered
      exact ordered.of_append
    constructor
    · intro kind
      obtain ⟨bar, earlier, same, isBar⟩ := upTo.bar_before kind
      exact ⟨earlier.reverse, bar, by simpa using congrArg List.reverse same, isBar⟩
    · intro kind
      obtain ⟨between, io, earlier, same, isIo, only⟩ := (upTo.expecting kind).io_before
      refine ⟨earlier.reverse, io, between.reverse, ?_, isIo, by simpa using only⟩
      simpa using congrArg List.reverse same
  · intro p reached
    refine ⟨reached.verdict, p.goes_on, ?_⟩
    obtain ⟨before, opened, debugs, opens, marks, -, -, split⟩ := reached.stands
    intro token first
    obtain ⟨rest, here⟩ := List.head?_eq_some_iff.mp first
    rw [here] at split
    exact opens.begins marks (split ▸ ordered)
  · intro kind position refused
    have breaks := parse_error_iff.mp refused
    generalize tokenize source = tokens at breaks
    cases breaks

/-- A word that an `io` waits for past a bar and its number. The parser refuses the `io` before it comes to
the word. -/
theorem statements_begin_late_target :
    let io : Token := ⟨.io, ['i', 'o'], ⟨1, 1⟩⟩
    let bar : Token := ⟨.bar, ['|'], ⟨1, 3⟩⟩
    let number : Token := ⟨.number, ['5'], ⟨1, 4⟩⟩
    let word : Token := ⟨.word, ['s', 't', 'd'], ⟨1, 6⟩⟩
    tokenize "io|5 std".toList = [io, bar, number, word] ∧
      (∃ earlier io' between, [io, bar, number] = earlier ++ io' :: between ∧ io'.kind = .io ∧
        ∀ other ∈ between, other.kind = .bar ∨ other.kind = .number) ∧
      Parsing.Reached (tokenize "io|5 std".toList) { rest := [io, bar, number, word] } ∧
      Block.parse "io|5 std".toList = .error (.malformed .targetMissing ⟨1, 1⟩) ∧
      io.kind ≠ .number ∧ io.kind ≠ .word := by
  intro io bar number word
  have tokens : tokenize "io|5 std".toList = [io, bar, number, word] := by decide
  have reached : Parsing.Reached (tokenize "io|5 std".toList) { rest := [io, bar, number, word] } :=
    tokens ▸ .start
  obtain ⟨places, beginnings, -⟩ := statements_begin "io|5 std".toList
  refine ⟨tokens, (places [io, bar, number] word [] tokens).2 rfl, reached, ?_,
    (beginnings _ reached).2.2 io rfl⟩
  rw [Block.parse, tokens]
  rfl

end TapeLang.Source

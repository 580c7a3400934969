import TapeLang.Proofs.Grammar
import TapeLang.Proofs.Grammar.Order
import TapeLang.Proofs.Numerals

/-!
What the parser makes of any token list. It goes through complete statements and open brackets
(`Opens`) until the text ends or breaks the grammar (`Breaks`). Both are said without the parser, from
the left: what is before a violation is complete statements and open brackets, so no other violation is
before it. A list of tokens is parsed to the block that it spells, and refused for the violation it holds.
-/
namespace TapeLang.Source

theorem marks_nil : Marks [] := by simp [Marks]

theorem Marks.snoc (marks : Marks debugs) (kind : token.kind = .debug) : Marks (debugs ++ [token]) := by
  intro other member
  rcases List.mem_append.mp member with before | last
  · exact marks other before
  · exact List.mem_singleton.mp last ▸ kind

theorem Spells.append : Spells tokens block → Spells rest more → ∃ whole, Spells (tokens ++ rest) whole
  | .nil, second => ⟨more, second⟩
  | .cons marks spoken marked next, second => by
    obtain ⟨whole, spelled⟩ := next.append second
    exact ⟨.cons _ whole, by simpa using Spells.cons marks spoken marked spelled⟩

/-- A marked statement on its own is a block. -/
theorem Says.spells (spoken : Says piece s) (marks : Marks debugs)
    (marked : s.head.marked = !debugs.isEmpty) : Spells (debugs ++ piece) (.cons s .nil) := by
  simpa using Spells.cons marks spoken marked .nil

/-! ## Places -/

/-- Tokens that are complete statements and open brackets, the open ones innermost first: after them
a statement may begin. -/
inductive Opens : List Token → List Token → Prop where
  | top (spelled : Spells tokens block) : Opens tokens []
  | inside {before opened debugs tokens : List Token} {opening : Token} {body : Block}
      (opens : Opens before opened) (marks : Marks debugs) (kind : opening.kind = .loopOpen)
      (spelled : Spells tokens body) :
      Opens (before ++ (debugs ++ opening :: tokens)) (opening :: opened)

/-- Nothing more comes in a block: its text is at an end, or at a closing bracket. -/
def EndsBlock (tokens : List Token) : Prop := ∀ token ∈ tokens.head?, token.kind = .loopClose

/-- How a token list breaks the grammar. Before the violation stand complete statements and open
brackets, and the marks of the statement that is broken. -/
inductive Breaks : List Token → ParseError → Prop where
  | strayClose (opens : Opens before []) (kind : closing.kind = .loopClose) :
      Breaks (before ++ closing :: after) (.malformed .strayClose closing.position)
  | danglingMark {before opened debugs after : List Token} {last : Token}
      (opens : Opens before opened) (marks : Marks debugs)
      (kind : last.kind = .debug) (ends : EndsBlock after) :
      Breaks (before ++ (debugs ++ last :: after)) (.malformed .danglingMark last.position)
  | numberAtEnd (opens : Opens before opened) (marks : Marks debugs) (bar : opening.kind = .bar) :
      Breaks (before ++ (debugs ++ [opening])) (.malformed .numberAtEnd opening.position)
  | numberMissing (opens : Opens before opened) (marks : Marks debugs) (bar : opening.kind = .bar)
      (other : found.kind ≠ .number) :
      Breaks (before ++ (debugs ++ opening :: found :: after))
        (.malformed (.numberMissing found.kind) opening.position)
  | numeral (opens : Opens before opened) (marks : Marks debugs) (bar : opening.kind = .bar)
      (kind : number.kind = .number) (refused : pushValue number.lexeme = .error fault) :
      Breaks (before ++ (debugs ++ opening :: number :: after)) (.numeral fault)
  | targetMissing {before opened debugs after : List Token} {opening : Token}
      (opens : Opens before opened) (marks : Marks debugs) (io : opening.kind = .io)
      (missing : ∀ token ∈ after.head?, token.kind ≠ .word) :
      Breaks (before ++ (debugs ++ opening :: after)) (.malformed .targetMissing opening.position)
  | targetUnknown (opens : Opens before opened) (marks : Marks debugs) (io : opening.kind = .io)
      (kind : word.kind = .word) (unknown : Target.ofName? (String.ofList word.lexeme) = none) :
      Breaks (before ++ (debugs ++ opening :: word :: after))
        (.malformed (.targetUnknown (String.ofList word.lexeme)) word.position)
  | loopUnclosed (opens : Opens tokens (opening :: opened)) :
      Breaks tokens (.malformed .loopUnclosed opening.position)

/-- One more statement. -/
theorem Opens.say (opens : Opens before opened) (marks : Marks debugs) (spoken : Says piece s)
    (marked : s.head.marked = !debugs.isEmpty) : Opens (before ++ (debugs ++ piece)) opened := by
  have last := spoken.spells marks marked
  cases opens with
  | top spelled =>
    obtain ⟨block, whole⟩ := spelled.append last
    exact .top whole
  | inside opens marks' kind spelled =>
    obtain ⟨block, whole⟩ := spelled.append last
    simpa using Opens.inside opens marks' kind whole

/-- One more open bracket. -/
theorem Opens.enter (opens : Opens before opened) (marks : Marks debugs)
    (kind : opening.kind = .loopOpen) : Opens (before ++ (debugs ++ [opening])) (opening :: opened) :=
  .inside opens marks kind .nil

/-- The innermost bracket closed. -/
theorem Opens.close (opens : Opens before (opening :: opened)) (kind : closing.kind = .loopClose) :
    Opens (before ++ [closing]) opened := by
  cases opens with
  | @inside outer _ debugs tokens _ body opens marks bracket spelled =>
    have spoken : Says (opening :: tokens ++ [closing])
        (.loop ⟨opening.position, !debugs.isEmpty⟩ body) := .loop bracket spelled kind
    simpa using opens.say marks spoken rfl

/-- Complete statements and open brackets are the beginning of a program: closing the brackets is enough. -/
theorem Opens.viable (opens : Opens before opened) : ∃ rest program, Spells (before ++ rest) program := by
  induction opened generalizing before with
  | nil =>
    cases opens with
    | top spelled => exact ⟨[], _, by simpa using spelled⟩
  | cons opening opened ih =>
    have bracket : (⟨.loopClose, [']'], {}⟩ : Token).kind = .loopClose := rfl
    obtain ⟨rest, program, spelled⟩ := ih (opens.close bracket)
    exact ⟨_ :: rest, program, by simpa using spelled⟩

/-! ## Where numbers and words stand -/

/-- Tokens, newest first, after which neither a number nor a word may stand. -/
def Settled (before : List Token) : Prop :=
  (∀ token ∈ before.head?, token.kind ≠ .bar) ∧ ¬ Expecting before

/-- Nor does a bar or an `io` begin a statement of its own: what stands after a token that is neither
is settled, up to the numbers of earlier bars. -/
theorem settled_cons (kind : token.kind ≠ .io ∧ token.kind ≠ .bar ∧ token.kind ≠ .number) :
    Settled (token :: before) := by
  refine ⟨by simpa using kind.2.1, ?_⟩
  rintro (io | past)
  · exact kind.1 io
  · rcases past with bar | number
    · exact kind.2.1 bar
    · exact kind.2.2 number

theorem settled_number (settled : Settled before) (bar : opening.kind = .bar)
    (kind : number.kind = .number) : Settled (number :: opening :: before) := by
  refine ⟨by simp [kind], ?_⟩
  rintro (io | ⟨-, expecting⟩)
  · simp [kind] at io
  · rcases expecting with io | ⟨-, expecting⟩
    · simp [bar] at io
    · exact settled.2 expecting

theorem settled_marks (settled : Settled before.reverse) (marks : Marks debugs) :
    Settled (before ++ debugs).reverse := by
  rcases List.eq_nil_or_concat debugs with rfl | ⟨debugs, last, rfl⟩
  · simpa using settled
  · have kind := marks last (by simp)
    have settled' : Settled (last :: (debugs.reverse ++ before.reverse)) := settled_cons (by simp [kind])
    simpa using settled'

theorem Says.settled (spoken : Says piece s) (settled : Settled before.reverse) :
    Settled (before ++ piece).reverse := by
  cases spoken with
  | @simple _ token _ known =>
    rw [List.reverse_concat]
    refine settled_cons ?_
    rcases token with ⟨kind, _, _⟩
    cases kind <;> simp [TokenKind.action?] at known ⊢
  | push bar kind counts => simpa using settled_number settled bar kind
  | @loop tokens _ _ opening closing opens middle closes =>
    rw [← List.append_assoc, List.reverse_concat]
    exact settled_cons (by simp [closes])
  | @switch _ opening word _ io kind named =>
    have settled' : Settled (word :: opening :: before.reverse) := settled_cons (by simp [kind])
    simpa using settled'

theorem Spells.settled : Spells tokens block → ∀ before, Settled before.reverse →
    Settled (before ++ tokens).reverse
  | .nil, before, settled => by simpa using settled
  | .cons marks spoken marked rest, before, settled => by
    have first := spoken.settled (settled_marks settled marks)
    simpa using rest.settled _ first

theorem Opens.settled (opens : Opens before opened) : Settled before.reverse := by
  induction opens with
  | top spelled => exact spelled.settled [] ⟨by simp, nofun⟩
  | @inside before _ debugs tokens opening _ opens marks kind spelled ih =>
    have bracket : Settled (before ++ debugs ++ [opening]).reverse := by
      rw [List.reverse_concat]
      exact settled_cons (by simp [kind])
    simpa using spelled.settled _ bracket

/-- Where a statement may begin, no number and no word stands. -/
theorem Opens.begins (opens : Opens before opened) (marks : Marks debugs)
    (ordered : Ordered (before ++ (debugs ++ token :: rest)).reverse) :
    token.kind ≠ .number ∧ token.kind ≠ .word := by
  have settled := settled_marks opens.settled marks
  have whole : Ordered (rest.reverse ++ token :: (before ++ debugs).reverse) := by simpa using ordered
  have upTo := whole.of_append
  generalize (before ++ debugs).reverse = earlier at settled upTo
  cases upTo with
  | number _ _ bar _ => exact absurd bar (settled.1 _ (by simp))
  | word _ expecting _ => exact absurd expecting settled.2
  | other kind _ => exact kind

/-! ## The parser -/

section Steps
variable (opened : List OpenLoop) (done : List Statement) (mark : Option Position) {token : Token}
  (rest : List Token)

theorem parseFrom_debug (kind : token.kind = .debug) :
    parseFrom opened done mark (token :: rest) = parseFrom opened done (some token.position) rest := by
  rw [parseFrom.eq_def]
  simp [kind]

theorem parseFrom_action (known : token.kind.action? = some action) :
    parseFrom opened done mark (token :: rest) =
      parseFrom opened (.act ⟨token.position, mark.isSome⟩ action :: done) none rest := by
  rw [parseFrom.eq_def]
  rcases token with ⟨kind, _, _⟩
  cases kind <;> simp [TokenKind.action?] at known ⊢ <;> simp [known]

theorem parseFrom_push (bar : token.kind = .bar) (kind : number.kind = .number)
    (counts : pushValue number.lexeme = .ok value) :
    parseFrom opened done mark (token :: number :: rest) =
      parseFrom opened (.act ⟨token.position, mark.isSome⟩ (.push value) :: done) none rest := by
  rw [parseFrom.eq_def]
  simp [bar, kind, counts]

theorem parseFrom_switch (io : token.kind = .io) (kind : word.kind = .word)
    (named : Target.ofName? (String.ofList word.lexeme) = some target) :
    parseFrom opened done mark (token :: word :: rest) =
      parseFrom opened (.act ⟨token.position, mark.isSome⟩ (.switch target.name) :: done) none rest := by
  rw [parseFrom.eq_def]
  simp [io, kind, named]

theorem parseFrom_open (kind : token.kind = .loopOpen) :
    parseFrom opened done mark (token :: rest) =
      parseFrom (⟨⟨token.position, mark.isSome⟩, done⟩ :: opened) [] none rest := by
  rw [parseFrom.eq_def]
  simp [kind]

theorem parseFrom_close (kind : token.kind = .loopClose) (loop : OpenLoop) :
    parseFrom (loop :: opened) done none (token :: rest) =
      parseFrom opened (.loop loop.head (.ofReversed done) :: loop.before) none rest := by
  rw [parseFrom.eq_def]
  simp [kind]

end Steps

/-- The position of the last of some marks. -/
def lastMark (debugs : List Token) : Option Position := debugs.getLast?.map (·.position)

theorem isSome_lastMark (debugs : List Token) : (lastMark debugs).isSome = !debugs.isEmpty := by
  cases debugs <;> simp [lastMark, List.getLast?_cons]

theorem parseFrom_marks (marks : Marks debugs) : ∀ mark,
    parseFrom opened done mark (debugs ++ rest) =
      parseFrom opened done ((lastMark debugs).or mark) rest := by
  induction debugs with
  | nil => intro mark; rfl
  | cons token debugs ih =>
    intro mark
    rw [List.cons_append, parseFrom_debug _ _ _ _ (marks token (by simp)),
      ih fun other member => marks other (by simp [member])]
    cases debugs <;> simp [lastMark, List.getLast?_cons]

mutual

theorem Says.parseFrom_eq : Says piece s → ∀ opened done mark rest, s.head.marked = mark.isSome →
    parseFrom opened done mark (piece ++ rest) = parseFrom opened (s :: done) none rest
  | .simple known, opened, done, mark, rest, marked => by
    simp only [Statement.head] at marked
    simp [parseFrom_action _ _ _ _ known, marked]
  | .push bar kind counts, opened, done, mark, rest, marked => by
    simp only [Statement.head] at marked
    simp [parseFrom_push _ _ _ _ bar kind counts, marked]
  | .loop opens middle closes, opened, done, mark, rest, marked => by
    simp only [Statement.head] at marked
    simp [parseFrom_open _ _ _ _ opens, middle.parseFrom_eq, parseFrom_close _ _ _ closes, marked,
      Block.ofReversed_reverse_statements]
  | .switch io kind named, opened, done, mark, rest, marked => by
    simp only [Statement.head] at marked
    simp [parseFrom_switch _ _ _ _ io kind named, marked]

theorem Spells.parseFrom_eq : Spells tokens block → ∀ opened done rest,
    parseFrom opened done none (tokens ++ rest) =
      parseFrom opened (block.statements.reverse ++ done) none rest
  | .nil, opened, done, rest => rfl
  | .cons marks spoken marked next, opened, done, rest => by
    have first := fun rest => spoken.parseFrom_eq opened done _ rest (marked.trans (isSome_lastMark _).symm)
    simp [parseFrom_marks marks, first, next.parseFrom_eq]

end

/-- The parser goes through complete statements and open brackets. -/
theorem Opens.parseFrom_eq (opens : Opens before opened) :
    ∃ loops done, loops.map (·.head.position) = opened.map (·.position) ∧
      ∀ rest, parseFrom [] [] none (before ++ rest) = parseFrom loops done none rest := by
  induction opens with
  | top spelled => exact ⟨[], _, rfl, spelled.parseFrom_eq [] []⟩
  | @inside before opened debugs tokens opening body opens marks kind spelled ih =>
    obtain ⟨loops, done, same, through⟩ := ih
    refine ⟨⟨⟨opening.position, (lastMark debugs).isSome⟩, done⟩ :: loops,
      body.statements.reverse ++ [], by simp [same], fun rest => ?_⟩
    simp [through, parseFrom_marks marks, parseFrom_open _ _ _ _ kind, spelled.parseFrom_eq]

/-- The parser goes through complete statements, open brackets and marks. -/
theorem Opens.parseFrom_marks (opens : Opens before opened) (marks : Marks debugs) :
    ∃ loops done, loops.map (·.head.position) = opened.map (·.position) ∧
      ∀ rest, parseFrom [] [] none (before ++ (debugs ++ rest)) =
        parseFrom loops done (lastMark debugs) rest := by
  obtain ⟨loops, done, same, through⟩ := opens.parseFrom_eq
  exact ⟨loops, done, same, fun rest => by simp [through, Source.parseFrom_marks marks]⟩

/-- A block that the tokens spell is what the parser makes of them. -/
theorem parse_of_spells (spelled : Spells tokens program) : Block.ofTokens tokens = .ok program := by
  have through := spelled.parseFrom_eq [] [] []
  simp only [List.append_nil] at through
  rw [Block.ofTokens, through]
  simp [parseFrom, Block.ofReversed_reverse_statements]

/-- A violation is what the parser makes of the tokens that hold it. -/
theorem error_of_breaks (breaks : Breaks tokens e) : Block.ofTokens tokens = .error e := by
  cases breaks with
  | strayClose opens kind =>
    obtain ⟨loops, done, same, through⟩ := opens.parseFrom_eq
    have none : loops = [] := by simpa using same
    rw [Block.ofTokens, through, parseFrom.eq_def]
    simp [kind, none]
  | @danglingMark _ _ _ after _ opens marks kind ends =>
    obtain ⟨loops, done, same, through⟩ := opens.parseFrom_marks marks
    rw [Block.ofTokens, through, parseFrom_debug _ _ _ _ kind, parseFrom.eq_def]
    cases after with
    | nil => rfl
    | cons token after => simp [show token.kind = .loopClose from ends token rfl]
  | numberAtEnd opens marks bar =>
    obtain ⟨loops, done, same, through⟩ := opens.parseFrom_marks marks
    rw [Block.ofTokens, through, parseFrom.eq_def]
    simp [bar]
  | numberMissing opens marks bar other =>
    obtain ⟨loops, done, same, through⟩ := opens.parseFrom_marks marks
    rw [Block.ofTokens, through, parseFrom.eq_def]
    simp [bar, other]
  | numeral opens marks bar kind refused =>
    obtain ⟨loops, done, same, through⟩ := opens.parseFrom_marks marks
    rw [Block.ofTokens, through, parseFrom.eq_def]
    simp [bar, kind, refused]
  | @targetMissing _ _ _ after _ opens marks io missing =>
    obtain ⟨loops, done, same, through⟩ := opens.parseFrom_marks marks
    rw [Block.ofTokens, through, parseFrom.eq_def]
    cases after with
    | nil => simp [io]
    | cons token after => simp [io, show token.kind ≠ .word from missing token rfl]
  | targetUnknown opens marks io kind unknown =>
    obtain ⟨loops, done, same, through⟩ := opens.parseFrom_marks marks
    rw [Block.ofTokens, through, parseFrom.eq_def]
    simp [io, kind, unknown]
  | loopUnclosed opens =>
    obtain ⟨loops, done, same, through⟩ := opens.parseFrom_eq
    have through := through []
    rw [List.append_nil] at through
    rw [Block.ofTokens, through]
    cases loops with
    | nil => simp at same
    | cons loop loops =>
      simp only [List.map_cons, List.cons.injEq] at same
      simp [parseFrom, same.1]

theorem nil_of_lastMark (none : none = lastMark debugs) : debugs = [] := by
  simpa [lastMark] using none.symm

theorem concat_of_lastMark (marks : Marks debugs) (some : some position = lastMark debugs) :
    ∃ earlier last, debugs = earlier ++ [last] ∧ Marks earlier ∧ last.kind = .debug ∧
      position = last.position := by
  rcases List.eq_nil_or_concat debugs with rfl | ⟨earlier, last, rfl⟩
  · simp [lastMark] at some
  · refine ⟨earlier, last, by simp, fun other member => marks other (by simp [member]),
      marks last (by simp), by simpa [lastMark] using some⟩

/-- What the parser refuses holds the violation. The tokens before those still to be read are complete
statements and open brackets, and the marks of the statement that begins. -/
theorem breaks_of_parseFrom (refused : parseFrom loops done mark tokens = .error e)
    (opens : Opens before opened) (marks : Marks debugs) (last : mark = lastMark debugs)
    (same : loops.map (·.head.position) = opened.map (·.position))
    (split : whole = before ++ (debugs ++ tokens)) (ordered : Ordered whole.reverse) :
    Breaks whole e := by
  fun_induction parseFrom loops done mark tokens generalizing before debugs opened with
  | case1 =>
    obtain ⟨earlier, mark, rfl, marks, kind, rfl⟩ := concat_of_lastMark marks last
    obtain rfl := Except.error.inj refused
    rw [split, List.append_assoc]
    exact .danglingMark opens marks kind (by simp [EndsBlock])
  | case2 => simp at refused
  | case3 done loop outer =>
    obtain rfl := nil_of_lastMark last
    obtain rfl := Except.error.inj refused
    cases opened with
    | nil => simp at same
    | cons opening opened =>
      simp only [List.map_cons, List.cons.injEq] at same
      rw [same.1, split, List.append_nil, List.append_nil]
      exact .loopUnclosed opens
  | case4 loops done mark token rest kind ih =>
    exact ih refused opens (marks.snoc kind) (by simp [lastMark]) same (by simp [split])
  | case5 loops done token rest kind position =>
    obtain ⟨earlier, mark, rfl, marks, debug, rfl⟩ := concat_of_lastMark marks last
    obtain rfl := Except.error.inj refused
    rw [split, List.append_assoc]
    exact .danglingMark opens marks debug (by simpa [EndsBlock] using kind)
  | case6 done token rest kind =>
    obtain rfl := nil_of_lastMark last
    obtain rfl := Except.error.inj refused
    have none : opened = [] := by simpa using same.symm
    rw [split]
    exact .strayClose (none ▸ opens) kind
  | case7 done token rest kind loop outer ih =>
    obtain rfl := nil_of_lastMark last
    cases opened with
    | nil => simp at same
    | cons opening opened =>
      simp only [List.map_cons, List.cons.injEq] at same
      exact ih refused (opens.close kind) marks_nil rfl same.2 (by simp [split])
  | case8 loops done mark token rest head kind =>
    rename_i ih
    exact ih refused (opens.enter marks kind) marks_nil rfl (by simp [same, head]) (by simp [split])
  | case9 loops done mark token bar =>
    obtain rfl := Except.error.inj refused
    exact split ▸ .numberAtEnd opens marks bar
  | case10 loops done mark token head bar number rest kind value counts =>
    rename_i ih
    have marked : head.marked = !debugs.isEmpty := by simp [head, last, isSome_lastMark]
    exact ih refused (opens.say marks (.push bar kind counts) marked) marks_nil rfl same (by simp [split])
  | case11 loops done mark token bar number rest kind fault counts =>
    obtain rfl := Except.error.inj refused
    exact split ▸ .numeral opens marks bar kind counts
  | case12 loops done mark token bar number rest kind =>
    obtain rfl := Except.error.inj refused
    exact split ▸ .numberMissing opens marks bar kind
  | case13 loops done mark token io =>
    obtain rfl := Except.error.inj refused
    exact split ▸ .targetMissing opens marks io (by simp)
  | case14 loops done mark token head io word rest name kind target =>
    rename_i named ih
    have marked : head.marked = !debugs.isEmpty := by simp [head, last, isSome_lastMark]
    exact ih refused (opens.say marks (.switch io kind named) marked) marks_nil rfl same (by simp [split])
  | case15 loops done mark token io word rest name kind =>
    rename_i unknown
    obtain rfl := Except.error.inj refused
    exact split ▸ .targetUnknown opens marks io kind unknown
  | case16 loops done mark token io word rest kind =>
    obtain rfl := Except.error.inj refused
    exact split ▸ .targetMissing opens marks io (by simpa using kind)
  | case17 loops done mark token rest head action _ _ _ _ _ known =>
    rename_i ih
    have marked : head.marked = !debugs.isEmpty := by simp [head, last, isSome_lastMark]
    exact ih refused (opens.say marks (.simple known) marked) marks_nil rfl same (by simp [split])
  | case18 loops done mark token rest debug loopClose loopOpen bar io unknown =>
    -- a number or a word: none stands where a statement may begin
    have begins := opens.begins marks (split ▸ ordered)
    rcases token with ⟨kind, _, _⟩
    cases kind <;> simp_all [TokenKind.action?]

/-! ## Texts -/

theorem parse_ok_iff : Block.parse source = .ok program ↔ Spells (tokenize source) program :=
  ⟨spells_of_parse, parse_of_spells⟩

theorem parse_error_iff : Block.parse source = .error e ↔ Breaks (tokenize source) e :=
  ⟨fun refused => breaks_of_parseFrom refused (.top .nil) marks_nil rfl rfl rfl (ordered_tokenize source),
    error_of_breaks⟩

theorem isNumeral_of_mem_tokenize (member : token ∈ tokenize source) (kind : token.kind = .number) :
    IsNumeral token.lexeme :=
  (ordered_tokenize source).isNumeral (List.mem_reverse.mpr member) kind

/-- The numbers of a text that are literals: decimal digits, and not too many of them. -/
theorem read_number_iff (member : token ∈ tokenize source) (kind : token.kind = .number) :
    (∃ number, Text.Numeral.read (token.lexeme.map Char.toNat) = .ok number) ↔
      Text.Numeral.IsDecimal (token.lexeme.map Char.toNat) ∧
        token.lexeme.length ≤ Text.Numeral.digitLimit := by
  have numeral := isNumeral_of_mem_tokenize member kind
  rw [Text.Numeral.read_eq_ok_iff (by simpa using numeral.1), List.length_map]
  intro n digit
  obtain ⟨c, inside, rfl⟩ := List.mem_map.mp digit
  exact numeral.2 c inside

/-- The value that is pushed is the number, as far as a cell holds it. -/
theorem pushValue_number (member : token ∈ tokenize source) (kind : token.kind = .number)
    (readable : ∃ number, Text.Numeral.read (token.lexeme.map Char.toNat) = .ok number) :
    pushValue token.lexeme =
      .ok ((Text.Numeral.positional 0 (token.lexeme.map Char.toNat) % 256 : Nat) : Int) := by
  have numeral := isNumeral_of_mem_tokenize member kind
  obtain ⟨decimal, short⟩ := (read_number_iff member kind).mp readable
  rw [pushValue, Text.Numeral.read_decimal (by simpa using numeral.1) decimal (by simpa using short)]
  simp [Except.map]

/-- If every number of a text is a literal, then its tokens make a program exactly when they spell it, a
number is pushed up to a multiple of the size of a cell, and a text that makes none is refused for its
first violation of the grammar, at the place of that violation. -/
theorem parse_decides_grammar (source : List Char)
    (readable : ∀ token ∈ tokenize source, token.kind = .number →
      ∃ number, Text.Numeral.read (token.lexeme.map Char.toNat) = .ok number) :
    (∀ program, Block.parse source = .ok program ↔ Spells (tokenize source) program) ∧
    (∀ token ∈ tokenize source, token.kind = .number → pushValue token.lexeme =
      .ok ((Text.Numeral.positional 0 (token.lexeme.map Char.toNat) % 256 : Nat) : Int)) ∧
    (∀ e, Block.parse source = .error e ↔ Breaks (tokenize source) e) ∧
    ∀ e, Breaks (tokenize source) e → ∃ fault position, e = .malformed fault position := by
  refine ⟨fun program => parse_ok_iff, fun token member kind =>
    pushValue_number member kind (readable token member kind), fun e => parse_error_iff, ?_⟩
  intro e breaks
  generalize same : tokenize source = tokens at breaks
  cases breaks with
  | numeral opens marks bar kind refused =>
    rename_i number after
    have member : number ∈ tokenize source := by simp [same]
    rw [pushValue_number member kind (readable number member kind)] at refused
    simp at refused
  | _ => exact ⟨_, _, rfl⟩

theorem parse_decides_grammar_dangling :
    Breaks (tokenize "|300[debug]".toList) (.malformed .danglingMark ⟨1, 6⟩) := by
  have tokens : tokenize "|300[debug]".toList =
      [⟨.bar, ['|'], ⟨1, 1⟩⟩, ⟨.number, ['3', '0', '0'], ⟨1, 2⟩⟩, ⟨.loopOpen, ['['], ⟨1, 5⟩⟩,
        ⟨.debug, ['d', 'e', 'b', 'u', 'g'], ⟨1, 6⟩⟩, ⟨.loopClose, [']'], ⟨1, 11⟩⟩] := by decide
  refine ((parse_decides_grammar _ ?_).2.2.1 _).mp ?_
  · intro token member kind
    rw [tokens] at member
    simp only [List.mem_cons, List.not_mem_nil, or_false] at member
    rcases member with rfl | rfl | rfl | rfl | rfl <;> simp only [reduceCtorEq] at kind
    exact ⟨300, rfl⟩
  · rw [Block.parse, tokens]
    rfl

end TapeLang.Source

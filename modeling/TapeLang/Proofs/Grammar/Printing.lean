import TapeLang.Proofs.Grammar.Layout
import TapeLang.Proofs.Json.Numbers
import TapeLang.Source.Printer

/-!
Written programs are read back. Between two words the scanner has no run, and expects nothing unless the
last word was an `io` (`Scanner.Between`); from such a state each word with the blank after it adds its
own tokens, whatever was read before. So the tokens of a written program spell it, positions aside, and
parsing gives it back (`parse_render`).
-/
namespace TapeLang.Source

/-- A scanner between two words that has read `tokens`. -/
structure Scanner.Between (s : Scanner) (expecting : Bool) (tokens : List Token) : Prop where
  run : s.run = .gap
  expecting : s.expecting = expecting
  tokens : s.tokens = tokens.reverse

/-- Words with a blank after each. -/
def spaced (words : List (List Char)) : List Char := words.flatMap (· ++ [' '])

@[simp] theorem spaced_nil : spaced [] = [] := rfl

@[simp] theorem spaced_cons (word : List Char) (words : List (List Char)) :
    spaced (word :: words) = word ++ ' ' :: spaced words := by
  simp [spaced]

@[simp] theorem spaced_append (words more : List (List Char)) :
    spaced (words ++ more) = spaced words ++ spaced more := by
  simp [spaced]

namespace Scanner

variable {s : Scanner} {expecting : Bool} {tokens : List Token}

/-! ## One word -/

/-- A blank at the end of a text is read without effect. -/
theorem finish_step_blank (s : Scanner) : (s.step ' ').finish = s.finish := by
  simp [step_blank s isBlankChar_space, Scanner.finish, Scanner.closeRun]

theorem Between.finish (between : s.Between expecting tokens) : s.finish = tokens := by
  simp [Scanner.finish, Scanner.closeRun, between.run, between.tokens]

theorem enter_wordChar {c : Char} (word : isWordChar c = true) :
    s.enter c = { s with run := .word s.position [c] } := by
  have sign : instruction? c = none := by
    unfold instruction?
    split <;> first | rfl | exact absurd word (by decide)
  have bar : c ≠ '|' := by
    rintro rfl
    exact absurd word (by decide)
  simp [Scanner.enter, sign, bar, word]

/-- A run that takes every character of a text collects the text. -/
theorem foldl_run {grow : List Char → Run} {rest read : List Char}
    (takes : ∀ c ∈ rest, ∀ s : Scanner, ∀ read, s.run = grow read →
      s.read c = { s with run := grow (c :: read) })
    (run : s.run = grow read) :
    ∃ position, rest.foldl step s = { s with run := grow (rest.reverse ++ read), position } := by
  induction rest generalizing s read with
  | nil => exact ⟨s.position, by simp [← run]⟩
  | cons c rest ih =>
    have first : s.step c = { s with run := grow (c :: read), position := s.position.advance c } := by
      rw [step, takes c (by simp) s read run]
    have later := fun d (member : d ∈ rest) => takes d (List.mem_cons_of_mem c member)
    obtain ⟨position, collected⟩ := ih (s := s.step c) later (by rw [first])
    refine ⟨position, ?_⟩
    rw [List.foldl_cons, collected, first, List.reverse_cons, List.append_assoc, List.singleton_append]

/-- A word is closed by the blank after it. -/
theorem Between.foldl_word (between : s.Between expecting tokens) (word : List Char)
    (nonempty : word ≠ []) (chars : ∀ c ∈ word, isWordChar c = true) :
    ∃ position, (word ++ [' ']).foldl step s =
      { s.closeWord s.position word with run := .gap, position } := by
  obtain ⟨c, rest, rfl⟩ := List.exists_cons_of_ne_nil nonempty
  have first : s.step c = { s with run := .word s.position [c], position := s.position.advance c } := by
    simp [step, Scanner.read, between.run, enter_wordChar (chars c (by simp))]
  have takes : ∀ d ∈ rest, ∀ s' : Scanner, ∀ read, s'.run = .word s.position read →
      s'.read d = { s' with run := .word s.position (d :: read) } := by
    intro d member s' read run
    simp [Scanner.read, run, chars d (List.mem_cons_of_mem c member)]
  obtain ⟨position, collected⟩ := foldl_run (s := s.step c) takes (by rw [first])
  refine ⟨position.advance ' ', ?_⟩
  rw [List.foldl_append, List.foldl_cons (l := rest), collected, first, List.foldl_cons,
    List.foldl_nil, step_blank _ isBlankChar_space]
  simp only [closeRun, closeWord, emit, List.reverse_append, List.reverse_reverse, List.reverse_singleton,
    List.singleton_append]
  split_ifs <;> rfl

/-- A `debug` that no target is expected before marks the next statement. -/
theorem Between.foldl_debug (between : s.Between false tokens) :
    ∃ token, token.kind = .debug ∧
      ((['d', 'e', 'b', 'u', 'g'] ++ [' ']).foldl step s).Between false (tokens ++ [token]) := by
  obtain ⟨position, same⟩ := between.foldl_word ['d', 'e', 'b', 'u', 'g'] (by simp)
    (List.all_eq_true.mp (by decide))
  refine ⟨⟨.debug, ['d', 'e', 'b', 'u', 'g'], s.position⟩, rfl, ?_⟩
  rw [same]
  constructor <;> simp [closeWord, emit, between.expecting, between.tokens]

/-- The word after an `io` is its target. -/
theorem Between.foldl_switch (between : s.Between false tokens) (word : List Char)
    (nonempty : word ≠ []) (chars : ∀ c ∈ word, isWordChar c = true) :
    ∃ opening target, opening.kind = .io ∧ target.kind = .word ∧ target.lexeme = word ∧
      ((['i', 'o'] ++ ' ' :: (word ++ [' '])).foldl step s).Between false (tokens ++ [opening, target]) := by
  obtain ⟨position, same⟩ := between.foldl_word ['i', 'o'] (by simp)
    (List.all_eq_true.mp (by decide))
  have waiting : ((['i', 'o'] ++ [' ']).foldl step s).Between true
      (tokens ++ [⟨.io, ['i', 'o'], s.position⟩]) := by
    rw [same]
    constructor <;> simp [closeWord, emit, between.expecting, between.tokens]
  rw [List.append_cons, List.foldl_append]
  generalize (['i', 'o'] ++ [' ']).foldl step s = middle at waiting
  obtain ⟨position, same⟩ := waiting.foldl_word word nonempty chars
  refine ⟨⟨.io, ['i', 'o'], s.position⟩, ⟨.word, word, middle.position⟩, rfl, rfl, rfl, ?_⟩
  rw [same]
  constructor <;> simp [closeWord, emit, waiting.expecting, waiting.tokens]

/-! ## Signs and numbers -/

/-- The sign of an instruction is a token wherever it stands. -/
theorem Between.foldl_sign {c : Char} {kind : TokenKind} (between : s.Between false tokens)
    (found : instruction? c = some kind) :
    ∃ token, token.kind = kind ∧ ([c, ' '].foldl step s).Between false (tokens ++ [token]) := by
  have read : s.read c = { s.emit kind [c] s.position with expecting := false, run := .gap } := by
    simp [Scanner.read, between.run, enter, found]
  refine ⟨⟨kind, [c], s.position⟩, rfl, ?_⟩
  rw [List.foldl_cons, List.foldl_cons, List.foldl_nil, step_blank _ isBlankChar_space]
  constructor <;> simp [step, read, closeRun, emit, between.tokens]

/-- The digits directly after a bar are its number. -/
theorem Between.foldl_push {digits : List Char} (between : s.Between false tokens)
    (numeral : IsNumeral digits) :
    ∃ opening number, opening.kind = .bar ∧ number.kind = .number ∧ number.lexeme = digits ∧
      (('|' :: (digits ++ [' '])).foldl step s).Between false (tokens ++ [opening, number]) := by
  have bar : s.step '|' = ⟨s.position.advance '|', .number (s.position.advance '|') [], s.expecting,
      ⟨.bar, ['|'], s.position⟩ :: s.tokens⟩ := by
    simp [step, Scanner.read, between.run, enter, instruction?, emit]
  have takes : ∀ d ∈ digits, ∀ s' : Scanner, ∀ read, s'.run = .number (s.position.advance '|') read →
      s'.read d = { s' with run := .number (s.position.advance '|') (d :: read) } := by
    intro d member s' read run
    simp [Scanner.read, run, numeral.2 d member]
  obtain ⟨position, collected⟩ := foldl_run (s := s.step '|') takes (by rw [bar])
  refine ⟨⟨.bar, ['|'], s.position⟩, ⟨.number, digits, s.position.advance '|'⟩, rfl, rfl, rfl, ?_⟩
  rw [List.foldl_cons, List.foldl_append, collected, List.foldl_cons, List.foldl_nil,
    step_blank _ isBlankChar_space]
  have nonempty := numeral.1
  constructor <;> simp [bar, closeRun, emit, nonempty, between.tokens, between.expecting]

end Scanner

/-! ## Numbers -/

theorem decimalValue?_ascii {n : Nat} (digit : Json.isDigit n = true) :
    Text.decimalValue? n = some (n - 0x30) := by
  simp only [Json.isDigit, Bool.and_eq_true, decide_eq_true_eq] at digit
  have first : 0x30 ≤ n ∧ n < 0x30 + 10 := by omega
  simp [Text.decimalValue?, Text.decimalZeros, first]

theorem positional_ascii {t : Text} (digits : ∀ n ∈ t, Json.isDigit n = true) (value : Nat) :
    Text.Numeral.positional value t = t.foldl (fun value n => value * 10 + (n - 0x30)) value := by
  induction t generalizing value with
  | nil => rfl
  | cons n rest ih =>
    have first : (Text.decimalValue? n).getD 0 = n - 0x30 := by
      rw [decimalValue?_ascii (digits n (by simp)), Option.getD_some]
    rw [Text.Numeral.positional, List.foldl_cons, first]
    exact ih (fun m member => digits m (by simp [member])) _

/-- The digits of a number that is not too long stand for what a cell holds of it. -/
theorem pushValue_toDigits {n : Nat} (short : Json.IsShort n) :
    pushValue (Nat.toDigits 10 n) = .ok ((n % 256 : Nat) : Int) := by
  have digits : ∀ d ∈ Json.digits n, Json.isDigit d = true := fun d => Json.isDigit_of_mem_digits
  have decimal : Text.Numeral.IsDecimal (Json.digits n) := by
    intro d member
    rw [decimalValue?_ascii (digits d member)]
    rfl
  have read := Text.Numeral.read_decimal (Json.digits_ne_nil n) decimal (Json.length_digits short)
  rw [positional_ascii digits, ← Json.digitsValue, Json.digitsValue_digits] at read
  rw [pushValue, ← Json.digits, read]
  rfl

theorem isNumeral_toDigits (n : Nat) : IsNumeral (Nat.toDigits 10 n) := by
  refine ⟨Nat.toDigits_ne_nil, fun c member => ?_⟩
  have digit : Json.isDigit c.toNat = true :=
    Json.isDigit_of_mem_digits (List.mem_map.mpr ⟨c, member, rfl⟩)
  simp [isDigitChar, Text.isDigit, decimalValue?_ascii digit]

/-! ## Statements -/

variable {s : Scanner} {tokens : List Token}

theorem Header.foldl_words (head : Header) (between : s.Between false tokens) :
    ∃ debugs, Marks debugs ∧ head.marked = !debugs.isEmpty ∧
      ((spaced head.words).foldl Scanner.step s).Between false (tokens ++ debugs) := by
  by_cases marked : head.marked = true
  · obtain ⟨token, kind, after⟩ := between.foldl_debug
    exact ⟨[token], by simpa [Marks] using kind, by simp [marked], by simpa [words, marked] using after⟩
  · exact ⟨[], marks_nil, by simpa using marked, by simpa [words, marked] using between⟩

/-- The words of an action add tokens that say it. -/
theorem Action.foldl_words {action : Action} (expressible : action.IsExpressible)
    (between : s.Between false tokens) :
    ∃ piece position, (∀ marked, Says piece (.act ⟨position, marked⟩ action)) ∧
      ((spaced action.words).foldl Scanner.step s).Between false (tokens ++ piece) := by
  have sign (c : Char) (kind : TokenKind) (found : instruction? c = some kind)
      (known : kind.action? = some action) (words : action.words = [[c]]) :
      ∃ piece position, (∀ marked, Says piece (.act ⟨position, marked⟩ action)) ∧
        ((spaced action.words).foldl Scanner.step s).Between false (tokens ++ piece) := by
    obtain ⟨token, rfl, after⟩ := between.foldl_sign found
    exact ⟨[token], token.position, fun marked => .simple known, by simpa [words] using after⟩
  cases action with
  | increment => exact sign '+' .plus rfl rfl rfl
  | decrement => exact sign '-' .minus rfl rfl rfl
  | moveRight => exact sign '>' .moveRight rfl rfl rfl
  | moveLeft => exact sign '<' .moveLeft rfl rfl rfl
  | clear => exact sign '*' .star rfl rfl rfl
  | output => exact sign '.' .dot rfl rfl rfl
  | input => exact sign ',' .comma rfl rfl rfl
  | push value =>
    obtain ⟨lower, upper⟩ := expressible
    obtain ⟨n, rfl⟩ := Int.eq_ofNat_of_zero_le lower
    have words : (Action.push n).words = ['|' :: Nat.toDigits 10 n] :=
      congrArg (['|' :: ·]) Nat.toList_repr
    obtain ⟨opening, number, bar, kind, lexeme, after⟩ := between.foldl_push (isNumeral_toDigits n)
    have counts : pushValue number.lexeme = .ok (n : Int) := by
      have below : (n : Nat) < 256 := by omega
      have short : Json.IsShort n := Json.isShort_of_natAbs_lt 3 (by decide) (by omega)
      rw [lexeme, pushValue_toDigits short, Nat.mod_eq_of_lt below]
    exact ⟨[opening, number], opening.position, fun marked => .push bar kind counts,
      by simpa [words] using after⟩
  | switch name =>
    obtain ⟨target, named⟩ := Option.isSome_iff_exists.mp expressible
    obtain rfl := Target.ofName?_eq_some_iff.mp named
    obtain ⟨opening, word, io, kind, lexeme, after⟩ := between.foldl_switch target.name.toList
      (by cases target <;> decide) (List.all_eq_true.mp (by cases target <;> decide))
    refine ⟨[opening, word], opening.position, fun marked => .switch io kind ?_, ?_⟩
    · rw [lexeme, String.ofList_toList, named]
    · simpa [Action.words] using after
  | none => exact expressible.elim

/-- The words of a block add tokens that spell it, up to its positions. -/
theorem Block.foldl_words {block : Block} (expressible : block.IsExpressible)
    (between : s.Between false tokens) :
    ∃ piece read, Spells piece read ∧ read.unplaced = block.unplaced ∧
      ((spaced block.words).foldl Scanner.step s).Between false (tokens ++ piece) := by
  induction block generalizing s tokens with
  | nil => exact ⟨[], .nil, .nil, rfl, by simpa [words] using between⟩
  | act head action next ih =>
    obtain ⟨debugs, marks, marked, between⟩ := head.foldl_words between
    obtain ⟨piece, position, spoken, between⟩ := Action.foldl_words expressible.1 between
    obtain ⟨more, next', spelled, same, between⟩ := ih expressible.2 between
    refine ⟨debugs ++ (piece ++ more), .act ⟨position, head.marked⟩ action next',
      .cons marks (spoken head.marked) marked spelled, by simp [unplaced, same], ?_⟩
    simpa [words, List.foldl_append] using between
  | loop head body next ihBody ih =>
    obtain ⟨debugs, marks, marked, between⟩ := head.foldl_words between
    obtain ⟨opening, opens, between⟩ := between.foldl_sign (c := '[') rfl
    obtain ⟨inner, body', within, sameBody, between⟩ := ihBody expressible.1 between
    obtain ⟨closing, closes, between⟩ := between.foldl_sign (c := ']') rfl
    obtain ⟨more, next', spelled, same, between⟩ := ih expressible.2 between
    refine ⟨debugs ++ (opening :: inner ++ [closing] ++ more),
      .loop ⟨opening.position, head.marked⟩ body' next',
      .cons marks (.loop opens within closes) marked spelled, by simp [unplaced, same, sameBody], ?_⟩
    simpa [words, List.foldl_append] using between

/-! ## Texts -/

/-- The blank at the end of spaced words is not read. -/
theorem tokenize_intercalate (words : List (List Char)) :
    tokenize ([' '].intercalate words) = tokenize (spaced words) := by
  cases words with
  | nil => rfl
  | cons word words =>
    have spaces : spaced (word :: words) = [' '].intercalate (word :: words) ++ [' '] := by
      induction words generalizing word with
      | nil => simp
      | cons next words ih => simp [ih next]
    rw [spaces, tokenize, tokenize, List.foldl_append, List.foldl_cons, List.foldl_nil,
      Scanner.finish_step_blank]

/-- Every program is read back from its own text: what is parsed has the kinds, values, targets, marks
and structure of what was written. -/
theorem parse_render {program : Block} (expressible : program.IsExpressible) :
    ∃ read, Block.parse program.render = .ok read ∧ read.unplaced = program.unplaced := by
  have start : Scanner.start.Between false [] := ⟨rfl, rfl, rfl⟩
  obtain ⟨tokens, read, spelled, same, after⟩ := Block.foldl_words expressible start
  refine ⟨read, ?_, same⟩
  rw [Block.parse, Block.render, tokenize_intercalate, tokenize, after.finish]
  exact parse_of_spells spelled

theorem parse_render_nested : ∃ program : Block,
    program.render = "debug [ debug |255 [ ] io tcp ] io http |0 debug ,".toList ∧
      program.IsExpressible ∧
      ∃ read, Block.parse program.render = .ok read ∧ read.unplaced = program.unplaced := by
  have expressible : (Block.loop ⟨{}, true⟩
      (.act ⟨{}, true⟩ (.push 255) (.loop {} .nil (.act {} (.switch "tcp") .nil)))
      (.act {} (.switch "http") (.act {} (.push 0) (.act ⟨{}, true⟩ .input .nil)))).IsExpressible := by
    simp [Block.IsExpressible, Action.IsExpressible, Target.ofName?, Target.name]
  exact ⟨_, rfl, expressible, parse_render expressible⟩

end TapeLang.Source

import TapeLang.Source.Parser

/-!
The grammar of programs, said without the parser: a block is a sequence of statements, each after any
number of `debug` tokens, and a statement is an instruction of one token, a bar with its number, a
block in brackets, or an `io` with the name of a target. The header of a statement is part of what
its tokens spell: the position of its first token, and a mark exactly when a `debug` comes before it.
Whatever the parser accepts is spelled by the tokens it read (`spells_of_parse`).
-/
namespace TapeLang.Source

/-- Nothing but `debug` tokens. -/
def Marks (tokens : List Token) : Prop := ∀ token ∈ tokens, token.kind = .debug

mutual

/-- The tokens of one statement, without the marks before it. -/
inductive Says : List Token → Statement → Prop where
  | simple {token : Token} {action : Action} (known : token.kind.action? = some action) :
      Says [token] (.act ⟨token.position, marked⟩ action)
  | push (bar : opening.kind = .bar) (kind : number.kind = .number)
      (counts : pushValue number.lexeme = .ok value) :
      Says [opening, number] (.act ⟨opening.position, marked⟩ (.push value))
  | loop {opening closing : Token} (opens : opening.kind = .loopOpen) (middle : Spells tokens body)
      (closes : closing.kind = .loopClose) :
      Says (opening :: tokens ++ [closing]) (.loop ⟨opening.position, marked⟩ body)
  | switch (io : opening.kind = .io) (kind : word.kind = .word)
      (named : Target.ofName? (String.ofList word.lexeme) = some target) :
      Says [opening, word] (.act ⟨opening.position, marked⟩ (.switch target.name))

/-- The tokens of a block, marks included. -/
inductive Spells : List Token → Block → Prop where
  | nil : Spells [] .nil
  | cons (marks : Marks debugs) (spoken : Says piece s) (marked : s.head.marked = !debugs.isEmpty)
      (rest : Spells tokens next) : Spells (debugs ++ (piece ++ tokens)) (.cons s next)

end

/-- The tokens of a block that is not empty: marks, the first statement, and the rest. -/
theorem Spells.uncons (spelled : Spells tokens block) (first : block.uncons? = some (s, next)) :
    ∃ debugs piece rest, tokens = debugs ++ (piece ++ rest) ∧ Marks debugs ∧
      s.head.marked = !debugs.isEmpty ∧ Says piece s ∧ Spells rest next := by
  cases spelled with
  | nil => simp [Block.uncons?] at first
  | cons marks spoken marked rest =>
    rw [Block.uncons_cons] at first
    obtain ⟨rfl, rfl⟩ := Prod.mk.inj (Option.some.inj first)
    exact ⟨_, _, _, rfl, marks, marked, spoken, rest⟩

theorem Spells.eq_nil (spelled : Spells tokens .nil) : tokens = [] := by
  generalize empty : Block.nil = block at spelled
  cases spelled with
  | nil => rfl
  | @cons _ _ s => cases s <;> simp [Block.cons] at empty

/-- The tokens of an action: one or two, and no bracket or mark among them. -/
theorem Says.action_tokens (spoken : Says piece (.act head action)) :
    ∃ first more, piece = first :: more ∧ first.position = head.position ∧
      ∀ token ∈ piece, token.kind ≠ .loopOpen ∧ token.kind ≠ .loopClose ∧ token.kind ≠ .debug := by
  cases spoken with
  | simple known =>
    refine ⟨_, [], rfl, rfl, ?_⟩
    intro token member
    rw [List.mem_singleton.mp member]
    constructor
    · rintro kind; simp [kind, TokenKind.action?] at known
    · constructor <;> rintro kind <;> simp [kind, TokenKind.action?] at known
  | push bar kind counts => exact ⟨_, _, rfl, rfl, by simp [bar, kind]⟩
  | switch io kind named => exact ⟨_, _, rfl, rfl, by simp [io, kind]⟩

/-- What an induction over blocks knows of a statement: of a loop, the motive of its body, and of an
action nothing. -/
def Inside (motive : List Token → Block → Prop) (piece : List Token) : Statement → Prop
  | .act _ _ => True
  | .loop _ body => ∃ opening middle closing, piece = opening :: middle ++ [closing] ∧
      opening.kind = .loopOpen ∧ Spells middle body ∧ motive middle body ∧ closing.kind = .loopClose

/-- Induction on what a block spells, one case for actions and one for loops. -/
theorem Spells.block_induction {motive : List Token → Block → Prop} (nil : motive [] .nil)
    (act : ∀ {debugs piece head action tokens next}, Marks debugs → Says piece (.act head action) →
      Spells tokens next → motive tokens next →
      motive (debugs ++ (piece ++ tokens)) (.act head action next))
    (loop : ∀ {debugs opening middle closing head body tokens next}, Marks debugs →
      opening.kind = .loopOpen → Spells middle body → motive middle body → closing.kind = .loopClose →
      Spells tokens next → motive tokens next →
      motive (debugs ++ (opening :: middle ++ [closing] ++ tokens)) (.loop head body next))
    (spelled : Spells tokens block) : motive tokens block := by
  refine @Spells.rec (fun piece s _ => Inside motive piece s) (fun tokens block _ => motive tokens block)
    ?_ ?_ ?_ ?_ nil ?_ tokens block spelled
  · intros; trivial
  · intros; trivial
  · intro middle body _ opening closing opens spelled closes holds
    exact ⟨opening, middle, closing, rfl, opens, spelled, holds, closes⟩
  · intros; trivial
  · intro debugs piece s tokens next marks spoken _ rest inside holds
    cases s with
    | act head action => exact act marks spoken rest holds
    | loop head body =>
      obtain ⟨opening, middle, closing, rfl, opens, spelled, within, closes⟩ := inside
      exact loop marks opens spelled within closes rest holds

/-! ## The parser -/

/-- What is still to be read completes a program: the current block up to its end, and then, if it is
the body of a loop, a closing bracket and what completes the block around. -/
def Completes : List OpenLoop → List Statement → List Token → Block → Prop
  | [], done, tokens, program =>
    ∃ block, Spells tokens block ∧ program = .prependReversed block done
  | loop :: outer, done, tokens, program =>
    ∃ middle closing after block, tokens = middle ++ closing :: after ∧ closing.kind = .loopClose ∧
      Spells middle block ∧
      Completes outer (.loop loop.head (.prependReversed block done) :: loop.before) after program

/-- One more statement in front of what completes a program. -/
private theorem completes_cons (marks : Marks debugs) (spoken : Says piece s)
    (marked : s.head.marked = !debugs.isEmpty)
    (completes : Completes opened (s :: done) tokens program) :
    Completes opened done (debugs ++ (piece ++ tokens)) program := by
  cases opened with
  | nil =>
    obtain ⟨block, spelled, rfl⟩ := completes
    exact ⟨.cons s block, .cons marks spoken marked spelled, rfl⟩
  | cons loop outer =>
    obtain ⟨middle, closing, after, block, rfl, closes, spelled, rest⟩ := completes
    exact ⟨debugs ++ (piece ++ middle), closing, after, .cons s block, by simp, closes,
      .cons marks spoken marked spelled, rest⟩

/-- What the parser reads completes the program it returns. The tokens include the marks that still
wait for their statement. -/
theorem completes_of_parseFrom (parsed : parseFrom opened done mark tokens = .ok program)
    (marks : Marks debugs) (waiting : mark.isSome = !debugs.isEmpty) :
    Completes opened done (debugs ++ tokens) program := by
  have noMarks : Marks [] := by simp [Marks]
  fun_induction parseFrom opened done mark tokens generalizing debugs with
  | case1 | case3 | case5 | case6 | case9 | case11 | case12 | case13 | case15 | case16 | case18 =>
    simp at parsed
  | case2 done =>
    have none : debugs = [] := by simpa using waiting
    exact ⟨.nil, by simpa [none] using Spells.nil, (Except.ok.inj parsed).symm⟩
  | case4 opened done mark token rest kind ih =>
    have more : Marks (debugs ++ [token]) := by
      intro other member
      rcases List.mem_append.mp member with before | last
      · exact marks other before
      · exact List.mem_singleton.mp last ▸ kind
    simpa using ih parsed more (by simp)
  | case7 done token rest kind loop outer ih =>
    have none : debugs = [] := by simpa using waiting
    exact ⟨[], token, rest, .nil, by simp [none], kind, .nil, ih parsed noMarks rfl⟩
  | case8 opened done mark token rest head kind =>
    rename_i ih
    obtain ⟨middle, closing, after, body, rfl, closes, spelled, completes⟩ := ih parsed noMarks rfl
    have spoken : Says (token :: middle ++ [closing]) (.loop head body) := .loop kind spelled closes
    simpa using completes_cons marks spoken waiting completes
  | case10 opened done mark token head kind number rest numeral value counts =>
    rename_i ih
    exact completes_cons marks (.push kind numeral counts) waiting (ih parsed noMarks rfl)
  | case14 opened done mark token head kind word rest name isWord target named =>
    rename_i ih
    exact completes_cons marks (.switch kind isWord named) waiting (ih parsed noMarks rfl)
  | case17 opened done mark token rest head action _ _ _ _ _ known =>
    rename_i ih
    exact completes_cons marks (.simple known) waiting (ih parsed noMarks rfl)

/-- The tokens of a text that parses spell its program. -/
theorem spells_of_parse (parsed : Block.parse source = .ok program) :
    Spells (tokenize source) program := by
  have none : Marks [] := by simp [Marks]
  obtain ⟨block, spelled, same⟩ := completes_of_parseFrom parsed none rfl
  rw [same]
  exact spelled

end TapeLang.Source

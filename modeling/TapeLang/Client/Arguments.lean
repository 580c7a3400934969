import TapeLang.Text.Numeral

/-!
Numbers among the words after a command. A word that begins with a hyphen looks like an option, and
there are none: it is left over, unless it is a negative number or holds a space. After the first double
hyphen no word is an option. The words that remain are taken for the numbers in their order; a double
hyphen beside a word goes with it, and the first double hyphen among the words that stand for a number
does not count.
-/
namespace TapeLang.Client.Arguments

/-- What a word is taken for. -/
inductive Role where
  | operand
  | option
  | divider
deriving DecidableEq, Repr

/-- The double hyphen. -/
def divider : Text := [0x2D, 0x2D]

def isDecimal (n : Nat) : Bool := (Text.decimalValue? n).isSome

/-- The text without a line break at its end. -/
def withoutBreak (t : Text) : Text := if t.getLast? = some 0xA then t.dropLast else t

/-- Whether a word is a hyphen and digits, perhaps with a point before the last of them. -/
def isNegative : Text → Bool
  | 0x2D :: digits =>
    let (whole, rest) := (withoutBreak digits).span isDecimal
    match rest with
    | [] => !whole.isEmpty
    | 0x2E :: fraction => !fraction.isEmpty && fraction.all isDecimal
    | _ => false
  | _ => false

/-- What a word with no divider before it is taken for. -/
def role (word : Text) : Role :=
  if word = divider then .divider
  else if word.head? = some 0x2D ∧ 2 ≤ word.length ∧ ¬ isNegative word ∧ 0x20 ∉ word then .option
  else .operand

/-- What each word is taken for. -/
def roles : List Text → List (Role × Text)
  | [] => []
  | word :: rest =>
    match role word with
    | .divider => (.divider, word) :: rest.map (Role.operand, ·)
    | other => (other, word) :: roles rest

/-- What is wrong with the words after a command. -/
inductive Misuse where
  | invalid (name : String) (word : Text)
  | missing (names : List String)
  | surplus (words : List Text)
deriving DecidableEq, Repr

def Misuse.message : Misuse → Text
  | .invalid name word => .ofString s!"argument {name}: invalid parse_int value: " ++ Text.quoted word
  | .missing names =>
    .ofString "the following arguments are required: " ++ .ofString (", ".intercalate names)
  | .surplus words => .ofString "unrecognized arguments: " ++ List.intercalate [0x20] words

/-- Why words give no numbers. -/
inductive Fault where
  | misused (misuse : Misuse)
  /-- nothing but a divider stands for a number -/
  | unfilled
deriving DecidableEq, Repr

/-- The number that words stand for. -/
def number (name : String) (group : List Text) : Except Fault Int :=
  match group.erase divider with
  | [word] => (Text.Numeral.readPrefixed word).mapError fun _ => .misused (.invalid name word)
  | _ => .error .unfilled

/-- How words are taken for numbers of given names. -/
structure Filling where
  /-- the words that stand for the numbers, with the names -/
  groups : List (String × List Text) := []
  /-- the names for which there are no words -/
  missing : List String := []
  /-- the words for which there are no names -/
  extra : List Text := []

def Filling.withGroup (f : Filling) (name : String) (group : List Text) : Filling :=
  { f with groups := (name, group) :: f.groups }

def Filling.withExtra (f : Filling) (word : Text) : Filling := { f with extra := word :: f.extra }

/-- Takes words for numbers of given names. -/
def fill : List String → List (Role × Text) → Filling
  | names, [] => { missing := names }
  | name :: names, (.divider, mark) :: (.operand, word) :: rest =>
    (fill names rest).withGroup name [mark, word]
  | name :: names, (.operand, word) :: (.divider, mark) :: rest =>
    (fill names rest).withGroup name [word, mark]
  | name :: names, (.operand, word) :: rest => (fill names rest).withGroup name [word]
  | names, (_, word) :: rest => (fill names rest).withExtra word

/-- The numbers that words stand for. -/
def numbers : List (String × List Text) → Except Fault (List Int)
  | [] => .ok []
  | (name, group) :: rest =>
    match number name group with
    | .error fault => .error fault
    | .ok n => (numbers rest).map (n :: ·)

/-- The numbers of given names. What is missing is told of before what is left over, and both only
where every number can be read. -/
def parse (names : List String) (words : List Text) : Except Fault (List Int) :=
  let filling := fill names (roles words)
  match numbers filling.groups with
  | .error fault => .error fault
  | .ok found =>
    if filling.missing ≠ [] then .error (.misused (.missing filling.missing))
    else if filling.extra ≠ [] then .error (.misused (.surplus filling.extra))
    else .ok found

/-- What is shown where words after a command are wrong. -/
def usage (command : String) (names : List String) (misuse : Misuse) : Text :=
  let synopsis := " ".intercalate (command :: names)
  .ofString s!"usage: {synopsis}\n{command}: error: " ++ misuse.message ++ [0xA]

/-- Every name has a number or is missing. -/
theorem length_groups_fill (names : List String) (words : List (Role × Text)) :
    (fill names words).groups.length + (fill names words).missing.length = names.length := by
  fun_induction fill names words with
  | case1 names => exact Nat.zero_add _
  | case2 name names mark word rest ih | case3 name names word mark rest ih
  | case4 name names word rest _ ih =>
    simp only [Filling.withGroup, List.length_cons]
    omega
  | case5 names role word rest _ _ _ ih => exact ih

theorem length_numbers {groups : List (String × List Text)} {found : List Int}
    (read : numbers groups = .ok found) : found.length = groups.length := by
  fun_induction numbers groups generalizing found with
  | case1 =>
    obtain rfl := Except.ok.inj read
    rfl
  | case2 name group rest fault refused => exact nomatch read
  | case3 name group rest n one ih =>
    cases others : numbers rest with
    | error fault => rw [others] at read; exact nomatch read
    | ok later =>
      rw [others] at read
      obtain rfl := Except.ok.inj read
      exact congrArg Nat.succ (ih others)

/-- There are as many numbers as names. -/
theorem length_parse {names : List String} {words : List Text} {found : List Int}
    (parsed : parse names words = .ok found) : found.length = names.length := by
  simp only [parse] at parsed
  cases read : numbers (fill names (roles words)).groups with
  | error fault => simp [read] at parsed
  | ok all =>
    have whole := length_groups_fill names (roles words)
    simp only [read] at parsed
    split at parsed
    · exact nomatch parsed
    next present =>
      split at parsed
      · exact nomatch parsed
      · obtain rfl := Except.ok.inj parsed
        rwa [Decidable.not_not.mp present, List.length_nil, Nat.add_zero,
          ← length_numbers read] at whole

end TapeLang.Client.Arguments

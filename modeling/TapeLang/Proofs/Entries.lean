import Mathlib.Data.List.DropRight
import TapeLang.Client.Entry

/-!
Lines at the prompt and lines given at the start. The prompt takes white space off the ends of a line
before it splits it. That leaves the words alone where what it takes off only stands between words, and
is not escaped (`Plain.split_trim`). Such a line asks for the same either way, and what is done about it
does not know where it comes from (`enter_agree`). So the two ways differ in how they end alone: where a
command goes wrong the prompt says so and stays, and a line that was given at the start passes it on
(`entries_agree`).

A line is called unreadable exactly if it has no words, or has the marker for its first word
(`Entry.rejects_iff`).
-/
namespace TapeLang

open Client (Control Report Reply)
open Text (isBlank)
open Text.Words (Splitter isSeparator scan split)

/-! ## The ends of a text -/

namespace Text

/-- What trimming takes off the front. -/
def front (drop : Nat → Bool) (t : Text) : Text := t.takeWhile drop

/-- What trimming takes off the back. -/
def back (drop : Nat → Bool) (t : Text) : Text := (t.dropWhile drop).rtakeWhile drop

theorem front_trim_back (drop : Nat → Bool) (t : Text) :
    t.front drop ++ t.trim drop ++ t.back drop = t := by
  have inner : t.trim drop ++ t.back drop = t.dropWhile drop := List.rdropWhile_append_rtakeWhile
  rw [List.append_assoc, inner, front, List.takeWhile_append_dropWhile]

end Text

/-! ## Words -/

namespace Text.Words

variable {s : Splitter} {n : Nat} {gap : Text}

theorem Quote.point_ne_separator (quote : Quote) (separator : isSeparator n = true) :
    n ≠ quote.point := by
  rintro rfl
  cases quote <;> exact absurd separator (by decide)

/-- Nothing comes of what stands between words. -/
theorem Splitter.read_gap (between : s.state = .gap) (separator : isSeparator n = true) :
    s.read n = s := by
  rw [Splitter.read, between]
  exact if_pos separator

/-- A character between words ends the word that has begun, and changes no other. -/
theorem Splitter.finish_read (free : s.isEscaped = false) (separator : isSeparator n = true) :
    (s.read n).finish = s.finish ∧ (s.read n).isEscaped = false := by
  have unescaped : n ≠ escape := by
    rintro rfl
    exact absurd separator (by decide)
  cases reading : s.state with
  | gap =>
    rw [Splitter.read_gap reading separator]
    exact ⟨rfl, free⟩
  | word read => simp [Splitter.read, Splitter.finish, Splitter.isEscaped, reading, separator]
  | quoted quote read =>
    simp [Splitter.read, Splitter.finish, Splitter.isEscaped, reading,
      quote.point_ne_separator separator, unescaped]
  | escaped => simp [Splitter.isEscaped, reading] at free

theorem foldl_read_gap (between : s.state = .gap) (separators : ∀ n ∈ gap, isSeparator n = true) :
    gap.foldl Splitter.read s = s := by
  induction gap with
  | nil => rfl
  | cons n gap ih =>
    rw [List.forall_mem_cons] at separators
    rw [List.foldl_cons, Splitter.read_gap between separators.1, ih separators.2]

theorem finish_foldl_read (free : s.isEscaped = false)
    (separators : ∀ n ∈ gap, isSeparator n = true) :
    (gap.foldl Splitter.read s).finish = s.finish := by
  induction gap generalizing s with
  | nil => rfl
  | cons n gap ih =>
    rw [List.forall_mem_cons] at separators
    obtain ⟨same, free⟩ := Splitter.finish_read free separators.1
    rw [List.foldl_cons, ih free separators.2, same]

end Text.Words

/-! ## What a line asks for -/

/-- A line that the prompt may trim: what it takes off its ends stands between words and is not escaped.
Its first word is not the marker. -/
structure Plain (line : Text) : Prop where
  front : ∀ n ∈ line.front isBlank, isSeparator n = true
  back : ∀ n ∈ line.back isBlank, isSeparator n = true
  free : line.back isBlank ≠ [] → (scan (line.trim isBlank)).isEscaped = false
  unmarked : ∀ arguments, split line ≠ .ok (Entry.marker :: arguments)

/-- A plain line is trimmed without harm to its words. -/
theorem Plain.split_trim {line : Text} (plain : Plain line) :
    split (line.trim isBlank) = split line := by
  have whole := line.front_trim_back isBlank
  have inner : scan line = (line.back isBlank).foldl Splitter.read (scan (line.trim isBlank)) := by
    conv_lhs => rw [← whole]
    rw [scan, List.foldl_append, List.foldl_append, Text.Words.foldl_read_gap rfl plain.front, scan]
  rw [split, split, inner]
  -- an escape at the end takes the meaning from what comes off the back, unless nothing does
  by_cases none : line.back isBlank = []
  · rw [none, List.foldl_nil]
  · exact (Text.Words.finish_foldl_read (plain.free none) plain.back).symm

theorem Plain.name_ne {line name : Text} {arguments : List Text} (plain : Plain line)
    (splits : split line = .ok (name :: arguments)) : name ≠ Entry.marker := by
  rintro rfl
  exact plain.unmarked arguments splits

namespace Entry

/-- Whether a line is called unreadable. -/
def Rejects (entry : Entry) (line : Text) : Prop := ∃ reason, entry.resolve line = .unreadable reason

/-- A line is called unreadable if what is split of it has no words, or has the marker for its first
word. -/
theorem rejects_iff (entry : Entry) (line : Text) :
    entry.Rejects line ↔
      (∃ fault, split (entry.content line) = .error fault) ∨
        ∃ arguments, split (entry.content line) = .ok (marker :: arguments) := by
  cases splits : split (entry.content line) with
  | error fault => simp [Rejects, resolve, words, splits]
  | ok found =>
    cases found with
    | nil => simp [Rejects, resolve, words, splits]
    | cons name arguments =>
      by_cases marked : name = marker
      · simp [Rejects, resolve, words, splits, marked]
      · cases known : Client.Verb.ofName? name <;>
          simp [Rejects, resolve, words, splits, marked, known]

/-- A plain line asks for the same, wherever it is entered. -/
theorem resolve_agree {line : Text} (plain : Plain line) :
    Entry.prompt.resolve line = Entry.oneShot.resolve line := by
  have same := plain.split_trim
  cases splits : split line with
  | error fault =>
    rw [splits] at same
    simp [resolve, words, content, same, splits, complaint]
  | ok found =>
    rw [splits] at same
    cases found with
    | nil => simp [resolve, words, content, same, splits]
    | cons name arguments => simp [resolve, words, content, same, splits, plain.name_ne splits]

theorem split_content {line : Text} (plain : Plain line) (entry : Entry) :
    split (entry.content line) = split line := by
  cases entry with
  | prompt => exact plain.split_trim
  | oneShot => rfl

/-- A plain line is called unreadable exactly if it has no words. -/
theorem rejects_plain {line : Text} (plain : Plain line) (entry : Entry) :
    entry.Rejects line ↔ ∃ fault, split line = .error fault := by
  rw [rejects_iff, split_content plain]
  exact or_iff_left fun ⟨arguments, marked⟩ => plain.unmarked arguments marked

/-- A plain line whose first word is the name of a command is that command, and the other words are its
arguments. -/
theorem resolve_command_iff {line : Text} (plain : Plain line) (entry : Entry) {verb : Client.Verb}
    {arguments : List Text} :
    entry.resolve line = .command verb arguments ↔
      ∃ name, split line = .ok (name :: arguments) ∧ Client.Verb.ofName? name = some verb := by
  rw [resolve, words, split_content plain]
  cases splits : split line with
  | error fault => simp
  | ok found =>
    cases found with
    | nil => simp
    | cons name others =>
      cases known : Client.Verb.ofName? name <;> simp [plain.name_ne splits, known, and_comm]

/-- How one line may end at the prompt and when it is given at the start: with the same code, which ends
the debugger at the prompt too if the command leaves. -/
inductive Ending.Agree : Ending → Ending → Prop where
  | status (code : Int) : Agree (.status code) (.status code)
  | exits (code : Int) : Agree (.exits code) (.status code)

end Entry

/-! ## Mishaps -/

namespace Shell

variable {s : Shell}

/-- A debugger that meets with no mishap: it waits as long as it can, and where it connects to there is
an address. -/
structure Calm (s : Shell) : Prop where
  patient : s.patience = .endless ∨ s.patience = .limited
  dialable : ∀ reason, s.dialing ≠ .impossible reason
  unraised : ∀ mishap, s.outcome ≠ some (.raised mishap)

/-- Whether what a debugger is to do can be read and written about. -/
def Resolves (resolution : Entry.Resolution) : Prop :=
  ∀ verb arguments, resolution = .command verb arguments →
    verb.task arguments ≠ .error .unfilled ∧
      ∀ control, verb.task arguments = .ok (.control control) →
        control.outOfRange?.any Control.isTooLong = false

/-- A debugger stays calm where nothing is raised. -/
theorem Calm.keep (calm : s.Calm) (client : Client) (looking : Bool) (outgoing : Outgoing)
    (journal : List Act) (outcome : Option Outcome)
    (unraised : ∀ mishap, outcome ≠ some (.raised mishap)) :
    Calm { s with client, looking, outgoing, journal, outcome } :=
  ⟨calm.patient, calm.dialable, unraised⟩

theorem Calm.report (calm : s.Calm) (report : Report) : (s.report report).Calm :=
  calm.keep _ _ _ _ _ (by simp)

theorem Calm.wait (calm : s.Calm) : s.wait.Calm := by
  have begins : s.patience ≠ .negative := by
    rintro same
    rcases calm.patient with endless | limited <;> simp_all
  rwa [Shell.wait, if_neg begins]

theorem Calm.send (calm : s.Calm) (control : Control) : (s.send control).Calm := by
  unfold Shell.send
  split
  · exact calm.keep _ _ _ _ _ (by simp)
  · split
    · split
      · exact calm.keep _ _ _ _ _ (by simp)
      · exact (calm.keep _ _ _ _ _ calm.unraised).wait
    · exact calm.keep _ _ _ _ _ (by simp)

theorem Calm.undertake (calm : s.Calm) {control : Control}
    (writable : control.outOfRange?.any Control.isTooLong = false) : (s.undertake control).Calm := by
  unfold Shell.undertake
  rw [if_neg (by simp [writable])]
  split
  · exact calm.keep _ _ _ _ _ (by simp)
  · split
    · exact calm.send control
    · exact (calm.keep _ _ _ _ _ calm.unraised).wait
    · exact calm.keep _ _ _ _ _ (by simp)
    next dials => exact absurd dials (calm.dialable _)

theorem Calm.look (calm : s.Calm) : s.look.Calm := by
  unfold Shell.look
  split
  · exact calm.keep _ _ _ _ _ (by simp)
  · exact (calm.keep _ _ _ _ _ calm.unraised).wait
  · exact calm.report _
  next dials => exact absurd dials (calm.dialable _)

theorem Calm.leave (calm : s.Calm) : s.leave.Calm := by
  unfold Shell.leave
  split <;> split <;> exact calm.keep _ _ _ _ _ (by simp)

theorem Calm.enter (calm : s.Calm) (entry : Entry) {line : Text} (resolves : Resolves (entry.resolve line)) :
    (s.enter entry line).Calm := by
  unfold Shell.enter
  split
  · exact calm
  · split
    · exact calm.keep _ _ _ _ _ (by simp)
    · exact calm.report _
    · exact calm.report _
    next verb arguments asks =>
      obtain ⟨filled, writable⟩ := resolves verb arguments asks
      have cleared : Calm { s with outcome := none } := calm.keep _ _ _ _ _ (by simp)
      unfold Shell.begin
      split
      next task found =>
        cases task with
        | help => exact cleared.report _
        | look => exact cleared.look
        | control control => exact cleared.undertake (writable control found)
        | leave => exact cleared.leave
      · exact cleared.report _
      · exact cleared.report _
      next fault => exact absurd fault filled

theorem Calm.goOn (calm : s.Calm) (reply : Reply) : (s.goOn reply).Calm := by
  unfold Shell.goOn
  split
  · exact calm.keep _ _ _ _ _ (by simp)
  · split
    · exact calm
    · exact calm.send _
    · exact calm.keep _ _ _ _ _ (by simp)

theorem Calm.take (calm : s.Calm) : s.take.Calm := by
  unfold Shell.take
  split
  · dsimp only
    split
    · exact calm.keep _ _ _ _ _ calm.unraised
    · exact (calm.keep _ _ _ _ _ calm.unraised).goOn _
    · exact (calm.keep _ _ _ _ _ calm.unraised).goOn _
  · exact calm

theorem Calm.elapse (calm : s.Calm) : s.elapse.Calm := by
  unfold Shell.elapse
  split
  · split
    · exact calm
    · exact calm
    · unfold Shell.giveUp
      split
      · exact calm.keep _ _ _ _ _ (by simp)
      · split
        · exact calm.keep _ _ _ _ _ calm.unraised
        · exact calm.keep _ _ _ _ _ (by simp)
        · exact calm.keep _ _ _ _ _ (by simp)
    next excessive => rcases calm.patient with endless | limited <;> simp_all
  · exact calm

theorem Calm.happen (calm : s.Calm) {event : Event}
    (dialable : ∀ reason, event ≠ .dial (.impossible reason)) : (s.happen event).Calm := by
  cases event with
  | take => exact calm.take
  | elapse => exact calm.elapse
  | arrive | close => exact calm.keep _ _ _ _ _ calm.unraised
  | dial dialing =>
    exact ⟨calm.patient, fun reason same => dialable reason (congrArg Event.dial same), calm.unraised⟩
  | hamper reason =>
    simp only [Shell.happen]
    split
    · exact calm
    · exact calm.keep _ _ _ _ _ calm.unraised

theorem Calm.run (calm : s.Calm) {events : List Event}
    (dialable : ∀ reason, .dial (.impossible reason) ∉ events) :
    (s.run (events.map .event)).Calm := by
  induction events generalizing s with
  | nil => exact calm
  | cons event events ih =>
    refine ih (calm.happen fun reason same => dialable reason ?_) fun reason member =>
      dialable reason (List.mem_cons_of_mem event member)
    exact same ▸ List.mem_cons_self

end Shell

/-! ## Either way -/

theorem Shell.enter_agree {line : Text} (plain : Plain line) (s : Shell) (entry : Entry) :
    s.enter entry line = s.enter .oneShot line := by
  cases entry with
  | prompt => rw [Shell.enter, Shell.enter, Entry.resolve_agree plain]
  | oneShot => rfl

/-- A plain line asks for the same at the prompt and when it is given at the start: the command that its
first word names, with the other words as arguments. It is called unreadable there and here exactly if it
has no words. Whatever the debugger knows by then and whatever the outside does, it comes to the same: the
same is sent and the same is written. In the end either way gives the same code, unless there was a
mishap, which the prompt tells of while the other way passes it on; and a debugger that is calm meets with
none. -/
theorem entries_agree {line : Text} (plain : Plain line) (s : Shell) (events : List Shell.Event) :
    Entry.prompt.resolve line = Entry.oneShot.resolve line ∧
      (∀ (entry : Entry) (verb : Client.Verb) (arguments : List Text),
        entry.resolve line = .command verb arguments ↔
          ∃ name, split line = .ok (name :: arguments) ∧ Client.Verb.ofName? name = some verb) ∧
      (∀ entry : Entry, entry.Rejects line ↔ ∃ fault, split line = .error fault) ∧
      ∃ t : Shell, (∀ entry, (s.enter entry line).run (events.map .event) = t) ∧
        (∀ outcome, t.outcome = some outcome →
          (Entry.prompt.conclude line outcome).1 = (Entry.oneShot.conclude line outcome).1 ∧
              (Entry.prompt.conclude line outcome).2.Agree (Entry.oneShot.conclude line outcome).2 ∨
            ∃ mishap, outcome = .raised mishap ∧
              (Entry.prompt.conclude line outcome).2 = .status 1 ∧
              (Entry.oneShot.conclude line outcome).2 = .raises mishap) ∧
        (s.Calm → Shell.Resolves (Entry.oneShot.resolve line) →
          (∀ reason, .dial (.impossible reason) ∉ events) →
          ∀ mishap, t.outcome ≠ some (.raised mishap)) := by
  refine ⟨Entry.resolve_agree plain, fun entry _ _ => Entry.resolve_command_iff plain entry,
    Entry.rejects_plain plain, _,
    fun entry => congrArg (Shell.run · _) (s.enter_agree plain entry), fun outcome _ => ?_,
    fun calm resolves dialable => ((calm.enter .oneShot resolves).run dialable).unraised⟩
  cases outcome with
  | returned code => exact .inl ⟨rfl, .status code⟩
  | left => exact .inl ⟨rfl, .exits 0⟩
  | raised mishap => exact .inr ⟨mishap, rfl, rfl, rfl⟩

/-- A step between blanks, while nobody listens. -/
theorem entries_agree_blanks :
    let line := Text.ofString " step\t"
    let s : Shell := { dialing := .refused "nobody listens" }
    Plain line ∧ Entry.prompt.resolve line = .command .step [] ∧
      Entry.prompt.resolve line = Entry.oneShot.resolve line ∧
      ∃ t : Shell, (∀ entry, (s.enter entry line).run [] = t) ∧ t.outcome = some (.returned 2) ∧
        t.shown.out = Text.ofString "error: step failed: connect failed: nobody listens\n" := by
  intro line s
  have words : split line = .ok [.ofString "step"] := rfl
  have plain : Plain line := by
    refine ⟨by decide, by decide, fun _ => rfl, fun arguments marked => ?_⟩
    have first := (List.cons.inj (Except.ok.inj (words.symm.trans marked))).1
    exact absurd first (by decide)
  obtain ⟨same, -, -, t, agree, -⟩ := entries_agree plain s []
  refine ⟨plain, rfl, same, t, agree, ?_⟩
  rw [← agree .oneShot]
  exact ⟨rfl, rfl⟩

/-- The marker is a word like any other, and a line that consists of it is called unreadable. A line
break of another kind and an escaped space at the ends of a line are lost at the prompt alone. -/
theorem entries_disagree :
    (split Entry.marker = .ok [Entry.marker] ∧ ∀ entry : Entry, entry.Rejects Entry.marker) ∧
      (Entry.prompt.resolve (.ofString "\x0bstep") = .command .step [] ∧
        Entry.oneShot.resolve (.ofString "\x0bstep") = .unknown (.ofString "\x0bstep")) ∧
      (Entry.prompt.resolve (.ofString "state \\ ") = .unreadable (.ofString "No escaped character") ∧
        Entry.oneShot.resolve (.ofString "state \\ ") = .command .state [.ofString " "]) := by
  refine ⟨⟨rfl, fun entry => ?_⟩, ⟨rfl, rfl⟩, rfl, rfl⟩
  exact (Entry.rejects_iff entry Entry.marker).mpr (.inr ⟨[], by cases entry <;> rfl⟩)

end TapeLang

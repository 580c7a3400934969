import TapeLang.Client.Control

/-!
What a debugger shows of the program's output. Every text is written as it came, on the error stream if
the program wrote it on its own, and else on the standard output. A debugger that answers in JSON shows
none of it.
-/
namespace TapeLang.Client

/-- The form of the answers. -/
inductive Form where
  | text
  | json
deriving DecidableEq, Repr

/-- What is written to the two streams of a debugger. -/
structure Shown where
  out : Text := []
  err : Text := []
deriving DecidableEq, Repr

/-- What is shown of output, given as streams and texts. -/
def Shown.ofOutput : Form → List (Text × Text) → Shown
  | .text, output =>
    { out := (output.filter (·.1 != Debug.stdErr)).flatMap (·.2)
      err := (output.filter (·.1 == Debug.stdErr)).flatMap (·.2) }
  | .json, _ => {}

end TapeLang.Client

namespace TapeLang

open Client (Form Shown)

/-- What is shown of the program's output when the next message is taken. All of it is shown as soon as
a command is answered. -/
def Client.shown (c : Client) (form : Form) : Shown :=
  let (context, awaited) := c.context.await
  match c.activity, awaited with
  | .waiting _, .gone | .waiting _, .halt _ => .ofOutput form context.output
  | _, _ => {}

end TapeLang

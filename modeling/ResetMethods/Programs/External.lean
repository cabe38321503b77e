import ResetMethods.Run
import ResetMethods.Text.Lossy

/-!
# ResetMethods.Programs.External

A program of its own as the formatter: it reads source text and writes it laid out.

* `ExitStatus`, `Completion` : how a program ended and what it wrote.
* `externalFormatter` : the formatter that a way of starting programs makes of a program.
-/

namespace ResetMethods

inductive ExitStatus where
  | code (n : Nat)
  | signal (n : Nat)
  deriving DecidableEq, Repr, Inhabited

def signalNames : List (Nat × String) :=
  [(1, "SIGHUP"), (2, "SIGINT"), (3, "SIGQUIT"), (4, "SIGILL"), (5, "SIGTRAP"), (6, "SIGABRT"),
    (7, "SIGBUS"), (8, "SIGFPE"), (9, "SIGKILL"), (10, "SIGUSR1"), (11, "SIGSEGV"),
    (12, "SIGUSR2"), (13, "SIGPIPE"), (14, "SIGALRM"), (15, "SIGTERM")]

def ExitStatus.message : ExitStatus → String
  | code n => "exit status: " ++ toString n
  | signal n =>
    "signal: " ++ toString n ++
      match signalNames.lookup n with
      | some name => " (" ++ name ++ ")"
      | none => ""

/-- A program that has ended, with its output and its error output. -/
structure Completion where
  status : ExitStatus
  output : ByteArray
  errors : ByteArray

/-- Starts a program on some input and waits for it. -/
abbrev Launcher (σ : Type) := String → ByteArray → σ → Except IoError Completion

/-- The output of a program that succeeded, or why there is none. -/
def Completion.formatted (c : Completion) : Except FormatError ByteArray :=
  if c.status = .code 0 then .ok c.output
  else
    .error <| .rejected c.status.message <|
      String.ofList (Text.trimEnd (Text.decodeLossy c.errors).toList)

def externalFormatter {σ : Type} (launch : Launcher σ) (program : String) : Formatter σ :=
  fun source state =>
    match launch program source state with
    | .error cause => (.error (.notStarted program cause), state)
    | .ok completion => (completion.formatted, state)

end ResetMethods

import ResetMethods.CommandLine.LogFilter
import ResetMethods.CommandLine.Options
import ResetMethods.Programs.External

/-!
# ResetMethods.CommandLine.Invocation

An invocation of the program.

* `Invocation` : arguments, environment and working directory.
* `Invocation.perform` : options, run and report.
* `Performance` : the exit code, the standard output, the log, what was written, and the state.
-/

namespace ResetMethods

def versionText : String := "0.1.0"

def helpText : String :=
  Text.join "\n"
    ["Generate nil-safe Reset() methods for structs annotated with `// generate:reset`.",
      "",
      "Usage: reset [OPTIONS]",
      "",
      "Options:",
      "  -d, --dir <DIR>              Root directory [env: RESET_DIR] [default: .]",
      "      --formatter <FORMATTER>  builtin or gofmt [env: RESET_FORMATTER] [default: builtin]",
      "      --gofmt <GOFMT>          gofmt executable [env: GOFMT] [default: gofmt]",
      "  -v, --verbose...             Increase log verbosity (-v info, -vv debug)",
      "  -h, --help                   Print help",
      "  -V, --version                Print version",
      ""]

structure Invocation where
  arguments : List String
  environment : Environment
  cwd : String

structure Performance (σ : Type) where
  exitCode : Nat
  output : String
  log : List String
  writes : List (String × ByteArray)
  state : σ

namespace Invocation

/-- The filter of the log: the verbosity decides, else the environment, else warnings pass. -/
def logFilter (environment : Environment) (o : Options) : LogFilter :=
  match o.logLevel? with
  | some level => .uniform level
  | none => ((environment "RUST_LOG").bind LogFilter.parse?).getD (.uniform .warn)

def formatter {σ : Type} (launch : Launcher σ) (o : Options) : Formatter σ :=
  match o.formatter with
  | .builtin => canonicalFormatter
  | .external => externalFormatter launch o.program

def closingEvent (result : Except RunError Summary) : Event :=
  match result with
  | .ok summary => .runFinished summary.files.length
  | .error e => .runFailed e.message

def performWith {σ : Type} (strategies : Formatter σ → Strategies σ) (launch : Launcher σ)
    (i : Invocation) (o : Options) (state : σ) : Performance σ :=
  let outcome := run (strategies (formatter launch o)) i.cwd o.dir state
  { exitCode := if outcome.result.isOk then 0 else 1
    output := ""
    log := (logFilter i.environment o).lines (outcome.events ++ [closingEvent outcome.result])
    writes := outcome.writes
    state := outcome.state }

/-- Performs an invocation. Arguments that are refused end it at once. -/
def perform {σ : Type} (strategies : Formatter σ → Strategies σ) (launch : Launcher σ)
    (i : Invocation) (state : σ) : Performance σ :=
  match Options.parse i.environment i.arguments with
  | .ok o => performWith strategies launch i o state
  | .error .helpAsked => ⟨0, helpText, [], [], state⟩
  | .error .versionAsked => ⟨0, "reset " ++ versionText ++ "\n", [], [], state⟩
  | .error _ => ⟨2, "", [], [], state⟩

end Invocation
end ResetMethods

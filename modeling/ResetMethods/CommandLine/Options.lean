import ResetMethods.Event
import ResetMethods.Text.Lines

/-!
# ResetMethods.CommandLine.Options

What the command line and the environment ask for.

* `Options` : the answers.
* `Options.parse` : reads arguments, then asks the environment for what they leave open.
* `OptionsError` : why arguments are refused, a wish for help included.

An option that takes a value may have it attached or as the next argument. A value in an argument
of its own is looked at when the next option is met or the arguments end, so an argument that means
nothing is found before the value is.
-/

namespace ResetMethods

inductive FormatterChoice where
  | builtin
  | external
  deriving DecidableEq, Repr, Inhabited

def FormatterChoice.ofName? : String → Option FormatterChoice
  | "builtin" => some .builtin
  | "gofmt" => some .external
  | _ => none

structure Options where
  dir : String
  formatter : FormatterChoice
  program : String
  verbosity : Nat
  deriving DecidableEq, Repr, Inhabited

inductive OptionsError where
  /-- A value is missing, empty or none of those known. -/
  | invalidValue
  /-- An argument means nothing. -/
  | unknownArgument
  /-- An option that may be given once is given again. -/
  | repeatedOption
  /-- A flag is given a value. -/
  | unwantedValue
  | helpAsked
  | versionAsked
  deriving DecidableEq, Repr, Inhabited

abbrev Environment := String → Option String

namespace Options

inductive Setting where
  | dir
  | formatter
  | program
  deriving DecidableEq, Repr, Inhabited

inductive Flag where
  | verbose
  | help
  | version
  deriving DecidableEq, Repr, Inhabited

inductive Switch where
  | setting (s : Setting)
  | flag (f : Flag)
  deriving DecidableEq, Repr, Inhabited

def longName? : String → Option Switch
  | "dir" => some (.setting .dir)
  | "formatter" => some (.setting .formatter)
  | "gofmt" => some (.setting .program)
  | "verbose" => some (.flag .verbose)
  | "help" => some (.flag .help)
  | "version" => some (.flag .version)
  | _ => none

def shortName? : Char → Option Switch
  | 'd' => some (.setting .dir)
  | 'v' => some (.flag .verbose)
  | 'h' => some (.flag .help)
  | 'V' => some (.flag .version)
  | _ => none

structure Given where
  dir : Option String
  formatter : Option FormatterChoice
  program : Option String
  verbosity : Nat
  deriving DecidableEq, Repr, Inhabited

def Given.nothing : Given := ⟨none, none, none, 0⟩

/-- An option whose value is still to be looked at, or still to come. -/
abbrev Pending := Option (Setting × Option String)

def pathValue (text : String) : Except OptionsError String :=
  if text.isEmpty then .error .invalidValue else .ok text

def formatterValue (text : String) : Except OptionsError FormatterChoice :=
  match FormatterChoice.ofName? text with
  | some choice => .ok choice
  | none => .error .invalidValue

def Given.has (g : Given) : Setting → Bool
  | .dir => g.dir.isSome
  | .formatter => g.formatter.isSome
  | .program => g.program.isSome

def Given.set (g : Given) (s : Setting) (text : String) : Except OptionsError Given :=
  if g.has s then .error .repeatedOption
  else
    match s with
    | .dir => (fun v => { g with dir := some v }) <$> pathValue text
    | .formatter => (fun v => { g with formatter := some v }) <$> formatterValue text
    | .program => (fun v => { g with program := some v }) <$> pathValue text

def Given.settle (g : Given) : Pending → Except OptionsError Given
  | none => .ok g
  | some (_, none) => .error .invalidValue
  | some (s, some text) => g.set s text

def verbosityLimit : Nat := 255

def Given.raise (g : Given) : Flag → Except OptionsError Given
  | .verbose => .ok { g with verbosity := min verbosityLimit (g.verbosity + 1) }
  | .help => .error .helpAsked
  | .version => .error .versionAsked

/-- Reads an argument of short names. The value of an option may follow its name, an equals sign
between them if wished. -/
def readShort (g : Given) (pending : Pending) :
    List Char → Except OptionsError (Given × Pending)
  | [] => .ok (g, pending)
  | c :: cs =>
    match shortName? c with
    | none => .error .unknownArgument
    | some (.flag f) => do
      let g ← g.settle pending
      let g ← g.raise f
      readShort g none cs
    | some (.setting s) => do
      let g ← g.settle pending
      match cs with
      | [] => return (g, some (s, none))
      | '=' :: value =>
        let g ← g.set s (String.ofList value)
        return (g, none)
      | value =>
        let g ← g.set s (String.ofList value)
        return (g, none)

/-- The name in an argument behind its two dashes, and the value behind an equals sign. -/
def splitLong (cs : List Char) : String × Option String :=
  (String.ofList (cs.takeWhile (· ≠ '=')),
    match cs.dropWhile (· ≠ '=') with
    | [] => none
    | _ :: value => some (String.ofList value))

def readLong (g : Given) (pending : Pending) (cs : List Char) :
    Except OptionsError (Given × Pending) :=
  match splitLong cs with
  | (name, value) =>
    match longName? name, value with
    | none, _ => .error .unknownArgument
    | some (.flag _), some _ => .error .unwantedValue
    | some (.flag f), none => do
      let g ← g.settle pending
      let g ← g.raise f
      return (g, none)
    | some (.setting s), none => do
      let g ← g.settle pending
      return (g, some (s, none))
    | some (.setting s), some text => do
      let g ← g.settle pending
      let g ← g.set s text
      return (g, none)

/-- Reads arguments. Nothing may follow two dashes. -/
def read (g : Given) (pending : Pending) : List String → Except OptionsError Given
  | [] => g.settle pending
  | argument :: rest =>
    match argument.toList with
    | ['-', '-'] => if rest.isEmpty then g.settle pending else .error .unknownArgument
    | '-' :: '-' :: cs => do
      let (g, pending) ← readLong g pending cs
      read g pending rest
    | '-' :: c :: cs => do
      let (g, pending) ← readShort g pending (c :: cs)
      read g pending rest
    | _ =>
      match pending with
      | some (s, none) => read g (some (s, some argument)) rest
      | _ => .error .unknownArgument

/-- What was given, else what the environment says, else a default. -/
def choose {α : Type} (given : Option α) (fromEnvironment : Option String)
    (value : String → Except OptionsError α) (default : α) : Except OptionsError α :=
  match given, fromEnvironment with
  | some a, _ => .ok a
  | none, some text => value text
  | none, none => .ok default

def complete (environment : Environment) (g : Given) : Except OptionsError Options := do
  let dir ← choose g.dir (environment "RESET_DIR") pathValue "."
  let formatter ← choose g.formatter (environment "RESET_FORMATTER") formatterValue .builtin
  let program ← choose g.program (environment "GOFMT") pathValue "gofmt"
  return ⟨dir, formatter, program, g.verbosity⟩

def parse (environment : Environment) (arguments : List String) : Except OptionsError Options := do
  let g ← read .nothing none arguments
  complete environment g

def logLevel? (o : Options) : Option Level :=
  match o.verbosity with
  | 0 => none
  | 1 => some .info
  | _ => some .debug

end Options
end ResetMethods

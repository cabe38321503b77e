/-!
# ResetMethods.Event

What a run reports on its way.

* `Event` : the reports, by what happened.
* `Event.level`, `Event.source`, `Event.message` : severity, the part of the program that reports,
  and the text.
* `Level.atLeast` : which reports pass a threshold.
-/

namespace ResetMethods

inductive Level where
  | error
  | warn
  | info
  | debug
  deriving DecidableEq, Repr, Inhabited

namespace Level

/-- The rank of a level; the most severe has the least. -/
def rank : Level → Nat
  | error => 0
  | warn => 1
  | info => 2
  | debug => 3

/-- Whether a report of level `l` passes the threshold. -/
def passes (l threshold : Level) : Bool := l.rank ≤ threshold.rank

def name : Level → String
  | error => "ERROR"
  | warn => "WARN"
  | info => "INFO"
  | debug => "DEBUG"

end Level

inductive Event where
  /-- A marked struct was left out because it is generic. -/
  | genericSkipped (name : String)
  /-- A method whose receiver names no type of its package. -/
  | unknownReceiver (receiver method : String)
  /-- An import path received its alias. -/
  | aliasBound (path aliasName : String)
  /-- A source file opted out of every build. -/
  | fileIgnored (file : String)
  /-- The packages under a root were parsed. -/
  | packagesParsed (root : String) (count : Nat)
  /-- A package has no source file to generate for. -/
  | packageWithoutFiles (path : String)
  /-- A package has no target. -/
  | packageWithoutTargets (path : String)
  /-- A target's name denotes no type of its package. -/
  | targetNotFound (name file : String) (line : Nat)
  /-- A target's name denotes a type that is no struct. -/
  | targetNotStruct (name : String)
  /-- The methods of a package were written. -/
  | methodsWritten (path : String) (methods : Nat)
  /-- The run ended well. -/
  | runFinished (files : Nat)
  /-- The run ended with an error. -/
  | runFailed (error : String)
  deriving DecidableEq, Repr, Inhabited

namespace Event

def level : Event → Level
  | genericSkipped .. | unknownReceiver .. | aliasBound .. | fileIgnored .. | packagesParsed ..
  | packageWithoutFiles .. | packageWithoutTargets .. => .debug
  | targetNotFound .. | targetNotStruct .. => .warn
  | methodsWritten .. | runFinished .. => .info
  | runFailed .. => .error

def source : Event → String
  | genericSkipped .. => "reset_gen::collector"
  | unknownReceiver .. => "reset_gen::resolver"
  | aliasBound .. => "reset_gen::imports"
  | fileIgnored .. | packagesParsed .. => "reset_gen::loader"
  | packageWithoutFiles .. | packageWithoutTargets .. | targetNotFound .. | targetNotStruct ..
  | methodsWritten .. => "reset_gen::generator"
  | runFinished .. | runFailed .. => "reset"

/-- The text of a report: what happened, then the particulars by name. -/
def message : Event → String
  | genericSkipped name => "skipping generic declaration name=" ++ name
  | unknownReceiver receiver method =>
    "method on unknown type receiver=" ++ receiver ++ " method=" ++ method
  | aliasBound path aliasName =>
    "bound import alias path=" ++ path ++ " alias=" ++ aliasName
  | fileIgnored file => "skipping ignored file file=" ++ file
  | packagesParsed root count =>
    "parsed packages root=" ++ root ++ " packages=" ++ toString count
  | packageWithoutFiles path => "skipping package without files package=" ++ path
  | packageWithoutTargets path => "skipping package without targets package=" ++ path
  | targetNotFound name file line =>
    "target type not found, skipping name=" ++ name ++ " file=" ++ file ++ " line=" ++
      toString line
  | targetNotStruct name => "target is not a struct type, skipping name=" ++ name
  | methodsWritten path methods =>
    "wrote reset methods path=" ++ path ++ " methods=" ++ toString methods
  | runFinished files => "done files=" ++ toString files
  | runFailed error => error

end Event

/-- The reports that pass a threshold, each with its level. -/
def shown (threshold : Level) (events : List Event) : List String :=
  (events.filter (·.level.passes threshold)).map fun e => e.level.name ++ " " ++ e.message

end ResetMethods

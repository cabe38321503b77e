import ResetMethods.Event
import ResetMethods.Text.Lines

/-!
# ResetMethods.CommandLine.LogFilter

Which reports reach the log.

* `LogFilter` : thresholds by the source of a report; the longest source that fits decides.
* `LogFilter.parse?` : reads `level`, `source=level` and `source`, with commas between them.
* `LogFilter.lines` : the log lines of some events.
-/

namespace ResetMethods

/-- A threshold for the sources that start with `source`; without one nothing passes. -/
structure LogDirective where
  source : String
  threshold : Option Level
  deriving DecidableEq, Repr, Inhabited

structure LogFilter where
  directives : List LogDirective
  deriving DecidableEq, Repr, Inhabited

namespace LogFilter

def uniform (level : Level) : LogFilter := ⟨[⟨"", some level⟩]⟩

/-- The threshold that a word names, in whatever case. -/
def threshold? (word : String) : Option (Option Level) :=
  match word.map Char.toLower with
  | "off" => some none
  | "error" => some (some .error)
  | "warn" => some (some .warn)
  | "info" => some (some .info)
  | "debug" => some (some .debug)
  | "trace" => some (some .debug)
  | _ => none

/-- Reads a directive. A source alone lets everything pass. -/
def directive? (text : List Char) : Option LogDirective :=
  match Text.pieces '=' text with
  | [word] =>
    match threshold? (String.ofList word) with
    | some threshold => some ⟨"", threshold⟩
    | none => some ⟨String.ofList word, some .debug⟩
  | [source, word] =>
    match threshold? (String.ofList word) with
    | some threshold => some ⟨String.ofList source, threshold⟩
    | none => none
  | _ => none

/-- Reads a filter. Without directives only errors pass. -/
def parse? (text : String) : Option LogFilter :=
  match (Text.pieces ',' text.toList).filter fun piece => !piece.isEmpty with
  | [] => some (uniform .error)
  | pieces => (pieces.mapM directive?).map LogFilter.mk

/-- The longer of two directives; of two equally long ones the later. -/
def stronger (best : Option LogDirective) (d : LogDirective) : Option LogDirective :=
  match best with
  | none => some d
  | some b => if b.source.length ≤ d.source.length then some d else some b

def thresholdFor (f : LogFilter) (source : String) : Option Level :=
  let fitting := f.directives.filter fun d => d.source.toList.isPrefixOf source.toList
  (fitting.foldl stronger none).bind (·.threshold)

def passes (f : LogFilter) (event : Event) : Bool :=
  (f.thresholdFor event.source).any event.level.passes

/-- The log lines of some events: level, source and text of those that pass. -/
def lines (f : LogFilter) (events : List Event) : List String :=
  (events.filter f.passes).map fun e => e.level.name ++ " " ++ e.source ++ ": " ++ e.message

end LogFilter
end ResetMethods

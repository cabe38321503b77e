import ResetMethods.Event

/-!
# ResetMethods.Reported

A result together with what was reported on the way to it.

* `Reported` : events in order, then a value or an error. Events before an error are kept.
* `Reported.report`, `Reported.ofExcept` : an event alone, and a result without events.
-/

namespace ResetMethods

structure Reported (ε α : Type) where
  events : List Event
  result : Except ε α

namespace Reported

variable {ε α β : Type}

def ofExcept (result : Except ε α) : Reported ε α := ⟨[], result⟩

def report (events : List Event) : Reported ε Unit := ⟨events, .ok ()⟩

/-- The events of both parts; after an error there is no second part. -/
def andThen (first : Reported ε α) (next : α → Reported ε β) : Reported ε β :=
  match first.result with
  | .error e => ⟨first.events, .error e⟩
  | .ok a =>
    let second := next a
    ⟨first.events ++ second.events, second.result⟩

instance : Monad (Reported ε) where
  pure a := ⟨[], .ok a⟩
  bind := andThen

end Reported
end ResetMethods

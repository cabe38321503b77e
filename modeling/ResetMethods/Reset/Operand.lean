/-!
# ResetMethods.Reset.Operand

The expressions that a `Reset()` method works on: a field of the receiver behind any number of
dereferences. A dereference binds weaker than a selector or a slice, so the spelling depends on the
place.

* `Operand.value` : on either side of `=` or `!=`, or as an argument.
* `Operand.primary` : before a selector, a slice or a type assertion.
* `Operand.address` : the pointer to the operand.
-/

namespace ResetMethods

/-- The field `field` of the receiver, dereferenced `derefs` times. -/
structure Operand where
  receiver : String
  field : String
  derefs : Nat
  deriving DecidableEq, Repr, Inhabited

namespace Operand

def ofField (receiver field : String) : Operand := ⟨receiver, field, 0⟩

def target (e : Operand) : Operand := { e with derefs := e.derefs + 1 }

def selector (e : Operand) : String := e.receiver ++ "." ++ e.field

def stars (n : Nat) : String := String.ofList (List.replicate n '*')

def value (e : Operand) : String := stars e.derefs ++ e.selector

/-- The operand before a selector, a slice or an assertion. -/
def primary (e : Operand) : String :=
  if e.derefs = 0 then e.selector else "(" ++ e.value ++ ")"

def address (e : Operand) : String :=
  match e.derefs with
  | 0 => "&" ++ e.selector
  | n + 1 => stars n ++ e.selector

end Operand
end ResetMethods

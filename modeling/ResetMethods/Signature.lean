/-!
# ResetMethods.Signature

What a type expression as written and a resolved type have in common, over the type `τ` of the
parts.

* `Direction` : which way a channel carries values.
* `Signature` : parameters, results and whether the last parameter is variadic. A variadic
  parameter stands in `params` as the slice it is inside the function.
-/

namespace ResetMethods

inductive Direction where
  | both
  | send
  | receive
  deriving DecidableEq, Repr, Inhabited

/-- The types of a function's parameters and results, one entry per parameter. -/
structure Signature (τ : Type) where
  params : List τ
  results : List τ
  variadic : Bool
  deriving Repr, Inhabited

/-- Neither parameters nor results, as `Reset()` has. -/
def Signature.isNullary {τ : Type} (s : Signature τ) : Bool :=
  s.params.isEmpty && s.results.isEmpty

end ResetMethods

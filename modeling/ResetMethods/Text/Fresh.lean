/-!
# ResetMethods.Text.Fresh

The first free name of a numbered family.

* `candidate base k` : `base` itself for `k = 0`, else `base` followed by `k` in decimals.
* `fresh base taken` : the candidate of least number that is not taken. As many names as are taken
  can stand in the way, so one candidate more always holds a free one.
-/

namespace ResetMethods
namespace Text

/-- The name number `k` of the family of `base`: `base`, `base1`, `base2`, … -/
def candidate (base : String) (k : Nat) : String :=
  if k = 0 then base else base ++ toString k

/-- The first of `base`, `base1`, `base2`, … that is not taken. -/
def fresh (base : String) (taken : List String) : String :=
  (((List.range (taken.length + 1)).map (candidate base)).find?
    fun name => !taken.contains name).getD base

end Text
end ResetMethods

/-!
# ResetMethods.Text.Blank

White space, and what trimming removes.

* `isBlank` : the Unicode property `White_Space`.
* `trim`, `trimStart`, `trimEnd` : a text without its outer white space.
-/

namespace ResetMethods
namespace Text

/-- White space as Unicode lists it: 25 characters. -/
def isBlank (c : Char) : Bool :=
  let n := c.toNat
  (9 ≤ n && n ≤ 13) || n == 0x20 || n == 0x85 || n == 0xA0 || n == 0x1680 ||
    (0x2000 ≤ n && n ≤ 0x200A) || n == 0x2028 || n == 0x2029 || n == 0x202F || n == 0x205F ||
    n == 0x3000

def trimStart (cs : List Char) : List Char :=
  cs.dropWhile isBlank

def trimEnd (cs : List Char) : List Char :=
  (cs.reverse.dropWhile isBlank).reverse

def trim (cs : List Char) : List Char :=
  trimEnd (trimStart cs)

end Text
end ResetMethods

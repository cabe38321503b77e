import ResetMethods.Text.Lines

/-!
# ResetMethods.Source.Constraint

The build constraint by which a source file opts out of every build.

* `isExcluded` : a line `//go:build` above the package clause has the word `ignore` in it.

The header of a file ends at the first line that starts with the word `package` and a space.
-/

namespace ResetMethods

open Text

/-- The lines of a text up to the package clause, without outer white space. -/
def headerLines (source : List Char) : List (List Char) :=
  ((lines source).map trim).takeWhile fun line => !"package ".toList.isPrefixOf line

/-- Whether a line is a build constraint with the word `ignore`. -/
def asksToIgnore (line : List Char) : Bool :=
  match after? "//go:build ".toList line with
  | some terms => (words terms).contains "ignore".toList
  | none => false

/-- Whether a source file opts out of every build. -/
def isExcluded (source : String) : Bool := (headerLines source.toList).any asksToIgnore

end ResetMethods

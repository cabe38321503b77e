import ResetMethods.Text.Letters
import ResetMethods.Text.Lines

/-!
# ResetMethods.Package

Packages as references name them.

* `PackageRef` : an import path and the name the package goes by.
* `guessPackageName` : the name to expect of a package whose sources are not at hand.
* `isStandardPath` : whether an import path lies in the standard library.
* `isExported` : whether a name is visible outside its package.
-/

namespace ResetMethods

open Text

/-- A package: its import path, which identifies it, and its name. -/
structure PackageRef where
  path : String
  name : String
  deriving DecidableEq, Repr, Inhabited

/-- A path segment `v` followed by digits, as a module's major version is written. -/
def isMajorVersion : List Char → Bool
  | 'v' :: digits => !digits.isEmpty && digits.all isAsciiDigit
  | _ => false

/-- The segment of an import path that names the package: the last one, or the one before it when
the last is a major version. -/
def namingSegment (path : List Char) : List Char :=
  match (pieces '/' path).reverse with
  | last :: previous :: _ => if isMajorVersion last then previous else last
  | last :: [] => last
  | [] => path

/-- The name to expect of the package at an import path: the naming segment up to its first dot,
without a leading `go-`, every character that no name may hold replaced by an underscore, and an
underscore in front of nothing or of a digit. -/
def guessPackageName (path : String) : String :=
  let stem := (namingSegment path.toList).takeWhile (· ≠ '.')
  let stem := (after? "go-".toList stem).getD stem
  let name := stem.map fun c => if isLetterOrNumber c || c == '_' then c else '_'
  String.ofList <|
    match name with
    | [] => ['_']
    | c :: _ => if isAsciiDigit c then '_' :: name else name

/-- The package at `path` when its sources are not at hand. -/
def PackageRef.external (path : String) : PackageRef :=
  ⟨path, guessPackageName path⟩

/-- A path of the standard library: its first segment is not empty and has no dot. -/
def isStandardPath (path : String) : Bool :=
  let first := path.toList.takeWhile (· ≠ '/')
  !first.isEmpty && !first.contains '.'

/-- A name is exported when it starts with an upper-case letter. -/
def isExported (name : String) : Bool :=
  match name.toList with
  | c :: _ => isUpper c
  | [] => false

end ResetMethods

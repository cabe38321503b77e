import ResetMethods.Failure
import ResetMethods.Text.Lines

/-!
# ResetMethods.Files.Path

Paths as text, segments separated by slashes.

* `Path.components` : the segments that name something.
* `Path.join` : a name below a directory.
* `Path.ancestors` : a path and the paths of the directories it is written in.
* `Path.absolute` : a path from the root of the file system.

All of these read the text only. A segment `..` counts as a name here, and what it stands for is
found out when a path is followed through a file tree.
-/

namespace ResetMethods
namespace Path

open Text (pieces after?)

def segments (path : String) : List String := (pieces '/' path.toList).map String.ofList

/-- Whether a segment stays where it is: an empty one or a dot. -/
def isIdle (segment : String) : Bool := segment == "" || segment == "."

def components (path : String) : List String := (segments path).filter fun s => !isIdle s

def isAbsolute (path : String) : Bool := path.toList.head? == some '/'

def endsInSlash (path : String) : Bool := path.toList.getLast? == some '/'

/-- The path of `name` below the directory `base`. -/
def join (base name : String) : String :=
  if base.isEmpty || endsInSlash base then base ++ name else base ++ "/" ++ name

/-- The path of some names, each below the one before it. -/
def joinAll (base : String) (names : List String) : String := names.foldl join base

/-- The absolute path with these segments, the last one first. -/
def ofReversed : List String → String
  | [] => "/"
  | segments => Text.join "/" segments.reverse

/-- The directories that an absolute path is written in, the innermost first. The path is given by
its segments, the last one first. -/
def parents : List String → List String
  | [] => []
  | s :: rest =>
    if isIdle s then parents rest else ofReversed (rest.dropWhile isIdle) :: parents rest

/-- The directory that an absolute path is written in. -/
def parent? (path : String) : Option String := (parents (segments path).reverse).head?

/-- An absolute path, and the directories that it is written in. -/
def ancestors (path : String) : List String := path :: parents (segments path).reverse

def fileName? (path : String) : Option String := (components path).getLast?

/-- The names that lead from the directory `base` to `path`, if the one path starts with the
other. -/
def relative? (base path : String) : Option (List String) :=
  after? (components base) (components path)

/-- What an absolute path starts with. Exactly two slashes are kept apart from one. -/
def rootOf (path : String) : String :=
  match path.toList with
  | '/' :: '/' :: '/' :: _ => "/"
  | '/' :: '/' :: _ => "//"
  | _ => "/"

/-- The path from the root of the file system, for the directory `cwd` at hand. Idle segments go
away, but one slash at the end stays. -/
def absolute (cwd path : String) : Except IoError String :=
  if path.isEmpty then .error .emptyPath
  else
    let base := if isAbsolute path then rootOf path else cwd
    let whole := joinAll base (components path)
    .ok (if endsInSlash path && !endsInSlash whole then whole ++ "/" else whole)

end Path
end ResetMethods

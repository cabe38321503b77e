/-!
# ResetMethods.Failure

What can go wrong, by cause, with one text for each cause.

* `IoError` : what the file system refuses.
* `LoadError` : reading a source tree.
* `FormatError` : laying out generated source.
* `RunError` : a whole run; each of its causes ends the run.
-/

namespace ResetMethods

inductive IoError where
  | notFound
  | permissionDenied
  | notDirectory
  | isDirectory
  | tooManyLinks
  | alreadyExists
  /-- A program file that is no program. -/
  | notExecutable
  /-- The contents are no valid UTF-8. -/
  | invalidText
  /-- There is no path to make absolute. -/
  | emptyPath
  | other (text : String)
  deriving DecidableEq, Repr, Inhabited

def IoError.message : IoError → String
  | notFound => "No such file or directory (os error 2)"
  | permissionDenied => "Permission denied (os error 13)"
  | notDirectory => "Not a directory (os error 20)"
  | isDirectory => "Is a directory (os error 21)"
  | tooManyLinks => "Too many levels of symbolic links (os error 40)"
  | alreadyExists => "File exists (os error 17)"
  | notExecutable => "Exec format error (os error 8)"
  | invalidText => "stream did not contain valid UTF-8"
  | emptyPath => "cannot make an empty path absolute"
  | other text => text

inductive LoadError where
  /-- A source or module file could not be read. -/
  | unreadable (path : String) (cause : IoError)
  /-- The tree could not be walked. -/
  | unwalkable (path : String) (cause : IoError)
  /-- A source file breaks the grammar. -/
  | malformed (file : String)
  /-- A source file has no package clause. -/
  | missingPackage (file : String)
  /-- Two files of one directory disagree on the package name. -/
  | packageMismatch (dir expected found : String)
  /-- A module file names no module. -/
  | missingModule (path : String)
  deriving DecidableEq, Repr, Inhabited

def LoadError.message : LoadError → String
  | unreadable path cause => "failed to read " ++ path ++ ": " ++ cause.message
  | unwalkable path cause =>
    "failed to walk source tree: IO error for operation on " ++ path ++ ": " ++ cause.message
  | malformed file => "syntax error in " ++ file
  | missingPackage file => "missing package clause in " ++ file
  | packageMismatch dir expected found =>
    "found packages " ++ expected ++ " and " ++ found ++ " in " ++ dir
  | missingModule path => "no module directive in " ++ path

inductive FormatError where
  /-- The source is no valid UTF-8. -/
  | invalidText
  /-- A closing delimiter does not match the innermost open one. -/
  | unbalanced (line : Nat) (closer : Char)
  /-- A delimiter is still open where it would have to be closed. -/
  | unclosed (delimiter : Char)
  /-- An external formatter could not be started. -/
  | notStarted (program : String) (cause : IoError)
  /-- An external formatter ended without success. -/
  | rejected (status : String) (output : String)
  deriving DecidableEq, Repr, Inhabited

def FormatError.message : FormatError → String
  | invalidText => "generated source is not valid UTF-8"
  | unbalanced line closer =>
    "unbalanced '" ++ closer.toString ++ "' on line " ++ toString line
  | unclosed delimiter => "unclosed '" ++ delimiter.toString ++ "' at end of input"
  | notStarted program cause => "failed to run " ++ program ++ ": " ++ cause.message
  | rejected status output => "gofmt exited with " ++ status ++ ": " ++ output

inductive RunError where
  /-- The root directory could not be made absolute. -/
  | unresolvable (path : String) (cause : IoError)
  /-- The sources could not be loaded, and nothing was written. -/
  | load (cause : LoadError)
  /-- The source generated for a package could not be laid out. -/
  | format (package : String) (cause : FormatError)
  /-- A generated file could not be written. -/
  | write (path : String) (cause : IoError)
  deriving DecidableEq, Repr, Inhabited

def RunError.message : RunError → String
  | unresolvable path cause =>
    "failed to resolve root directory " ++ path ++ ": " ++ cause.message
  | load cause => "failed to load packages: " ++ cause.message
  | format package cause =>
    "failed to format generated code for package " ++ package ++ ": " ++ cause.message
  | write path cause => "failed to write " ++ path ++ ": " ++ cause.message

end ResetMethods

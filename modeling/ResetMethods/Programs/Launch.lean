import ResetMethods.Programs.Shell

/-!
# ResetMethods.Programs.Launch

Starting programs in a file tree.

* `launch` : starts a known utility by its name, or a script by its path.

A script has permission to be executed and names the shell on its first line.
-/

namespace ResetMethods

/-- The directories that a program without a slash in its name is looked for in. -/
def programDirectories : List String := ["/usr/local/bin", "/usr/bin", "/bin"]

/-- The utilities that can be started on their own. -/
def standardUtilities : List String := ["cat", "true", "false", "echo", "head", "tee"]

def shells : List String := ["/bin/sh", "/usr/bin/sh", "/bin/bash", "/usr/bin/bash", "/bin/dash"]

def startUtility (name : String) (input : ByteArray) : Except IoError Completion :=
  if !standardUtilities.contains name then .error .notFound
  else
    match Shell.utility name [] input.toList with
    | none => .error .notFound
    | some effect =>
      .ok ⟨.code effect.code, ⟨effect.output.toArray⟩, ⟨effect.errors.toArray⟩⟩

/-- The interpreter that the first line of a script names, without its arguments. -/
def interpreter? (text : String) : Option String :=
  match text.toList with
  | '#' :: '!' :: cs =>
    (Text.words (cs.takeWhile (· ≠ '\n'))).head?.map String.ofList
  | _ => none

/-- Runs the contents of a file with execute permission. -/
def startScript (path : String) (contents input : ByteArray) : Except IoError Completion :=
  let text := Text.decodeLossy contents
  match interpreter? text with
  | none => .error .notExecutable
  | some shell => if shells.contains shell then .ok (Shell.run path text input) else .error .notFound

/-- Whether permission bits let anybody execute a file. -/
def isExecutable (mode : Nat) : Bool := mode &&& 0o111 != 0

def launch : Launcher FileTree := fun program input tree =>
  if !program.toList.contains '/' then startUtility program input
  else
    match tree.lookup true program with
    | .ok (.file contents mode) =>
      if isExecutable mode then startScript program contents input else .error .permissionDenied
    | .ok _ => .error .permissionDenied
    | .error cause =>
      if programDirectories.contains ((Path.parent? program).getD "") then
        startUtility ((Path.fileName? program).getD "") input
      else .error cause

end ResetMethods

import ResetMethods.CommandLine.Invocation

/-!
# ResetMethods.Main

The program: it takes a picture of the directories that a run looks at, performs the invocation on
the picture, and carries out what was written there.

Links below the root are not part of the picture, since no run follows them. No other program is
started, so an external formatter is refused.
-/

namespace ResetMethods

/-- The picture with a file of the disk added, if the disk has it. -/
def addDiskFile (tree : FileTree) (path : String) : IO FileTree := do
  try
    let contents ← IO.FS.readBinFile path
    match tree.writeFile path contents with
    | .ok tree => return tree
    | .error _ => return tree
  catch _ => return tree

def addDirectory (tree : FileTree) (path : String) : FileTree :=
  match tree.makeDirectories path with
  | .ok tree => tree
  | .error _ => tree

/-- The picture with all that lies below a directory added. -/
partial def addBelow (tree : FileTree) (path : String) : IO FileTree := do
  let cwd ← IO.currentDir
  let mut tree := addDirectory tree path
  for entry in ← (cwd / path).readDir do
    let child := Path.join path entry.fileName
    let kind := (← entry.path.symlinkMetadata).type
    if kind == .dir then
      tree ← addBelow tree child
    else if kind == .file then
      tree ← addDiskFile tree child
  return tree

/-- A picture of what a run below `root` looks at. -/
def picture (root : String) : IO FileTree := do
  let cwd ← IO.currentDir
  let mut tree : FileTree := .empty
  for dir in (Path.ancestors root).tail do
    tree ← addDiskFile (addDirectory tree dir) (Path.join dir manifestName)
  try
    match (← (cwd / root).metadata).type with
    | .dir => addBelow tree root
    | _ => addDiskFile tree root
  catch _ => return tree

/-- Read and write for the owner, read for everybody else. -/
def outputRights : IO.FileRight := ⟨⟨true, true, false⟩, ⟨true, false, false⟩, ⟨true, false, false⟩⟩

/-- Puts what was written onto the disk, up to the first path that refuses. -/
def carryOut (writes : List (String × ByteArray)) : IO Unit := do
  for (path, contents) in writes do
    IO.FS.writeBinFile path contents
    IO.setAccessRights path outputRights

/-- The variables of the environment that an invocation asks for. -/
def variableNames : List String := ["RESET_DIR", "RESET_FORMATTER", "GOFMT", "RUST_LOG"]

/-- The invocation that the program was started with. -/
def currentInvocation (arguments : List String) : IO Invocation := do
  let values ← variableNames.mapM fun name => do return (name, ← IO.getEnv name)
  return ⟨arguments, fun name => (values.lookup name).join, (← IO.currentDir).toString⟩

def pictureFor (i : Invocation) : IO FileTree :=
  match Options.parse i.environment i.arguments with
  | .error _ => return .empty
  | .ok o =>
    match Path.absolute i.cwd o.dir with
    | .error _ => return .empty
    | .ok root => picture root

end ResetMethods

def main (arguments : List String) : IO UInt32 := do
  let invocation ← ResetMethods.currentInvocation arguments
  let tree ← ResetMethods.pictureFor invocation
  let result :=
    invocation.perform ResetMethods.Strategies.onDisk
      (fun _ _ _ => .error .permissionDenied) tree
  try ResetMethods.carryOut result.writes
  catch e => if result.exitCode = 0 then throw e
  IO.print result.output
  for line in result.log do
    IO.eprintln line
  return UInt32.ofNat result.exitCode

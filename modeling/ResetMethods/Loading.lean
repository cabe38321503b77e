import ResetMethods.Files.Tree
import ResetMethods.Reported
import ResetMethods.Resolution
import ResetMethods.Source.Constraint
import ResetMethods.Source.FileGrammar

/-!
# ResetMethods.Loading

The packages below a root directory.

* `findModule` : the module that governs a directory, from the nearest module file above it.
* `sourceFiles` : the source files below a root, by directory.
* `parsePackage` : the files of one directory as a package.
* `Load` : packages with their declarations; `Load.ofSources` resolves some packages together.
* `load` : all packages below a root.

Directories and files are taken in the order of their names. Directories whose names say so, test
files and generated files are left out.
-/

namespace ResetMethods

def outputName : String := "reset.gen.go"

def manifestName : String := "go.mod"

/-- A module: its import path and the directory it is rooted in. -/
structure SourceModule where
  path : String
  dir : String
  deriving DecidableEq, Repr, Inhabited

/-- The module path that a line of a module file states. -/
def moduleOnLine (line : List Char) : Option String :=
  match Text.after? "module".toList (Text.trim (Text.before "//".toList line)) with
  | none => none
  | some rest =>
    if rest.head?.any Text.isBlank then
      let path := Text.stripEnds (· == '"') (Text.trim rest)
      if path.isEmpty then none else some (String.ofList path)
    else none

/-- The module path that a module file states first. -/
def modulePath? (manifest : String) : Option String :=
  (Text.lines manifest.toList).findSome? moduleOnLine

/-- The module of the first of some directories that has a module file. -/
def moduleAmong (tree : FileTree) : List String → Except LoadError (Option SourceModule)
  | [] => .ok none
  | dir :: rest =>
    let manifest := Path.join dir manifestName
    if tree.isFile manifest then
      match tree.readText manifest with
      | .error cause => .error (.unreadable manifest cause)
      | .ok text =>
        match modulePath? text with
        | some path => .ok (some ⟨path, dir⟩)
        | none => .error (.missingModule manifest)
    else moduleAmong tree rest

def findModule (tree : FileTree) (root : String) : Except LoadError (Option SourceModule) :=
  moduleAmong tree (Path.ancestors root)

/-- Whether a directory of that name is left out with all that lies below it. -/
def isIgnoredDirectory (name : String) : Bool :=
  name.toList.head? == some '.' || name.toList.head? == some '_' || name == "testdata" ||
    name == "vendor"

def endsIn (suffix text : String) : Bool := suffix.toList.isSuffixOf text.toList

/-- Whether a file of that name is a source file. -/
def isSourceName (name : String) : Bool :=
  endsIn ".go" name && !endsIn "_test.go" name && name != outputName

/-- The names that lead to an entry, if it is a source file in no ignored directory. -/
def sourceBelow? : Location × Entry → Option Location
  | (names, .file _ _) =>
    match names.dropLast.any isIgnoredDirectory, names.getLast?.any isSourceName with
    | false, true => some names
    | _, _ => none
  | _ => none

def addFile (files : Dict Location (List Location)) (names : Location) :
    Dict Location (List Location) :=
  files.insert names.dropLast ((files.get? names.dropLast).getD [] ++ [names])

/-- The source files below a location by directory, all as the names that lead there. -/
def filesByDirectory (tree : FileTree) (location : Location) : List (Location × List Location) :=
  (((tree.below location).filterMap sourceBelow?).foldl addFile .empty).toList

/-- A directory with the paths of the source files in it. -/
structure SourceDirectory where
  dir : String
  files : List String
  deriving DecidableEq, Repr, Inhabited

/-- The directory of some files, which are given by path. -/
def SourceDirectory.ofFiles (files : List String) : SourceDirectory :=
  ⟨(files.head?.bind Path.parent?).getD "", files⟩

/-- The source files below a location that `root` leads to. -/
def directoriesBelow (tree : FileTree) (root : String) (location : Location) :
    List SourceDirectory :=
  (filesByDirectory tree location).map fun (_, files) =>
    .ofFiles (files.map (Path.joinAll root))

/-- The source files below a root, by directory. A root that is a file stands for itself, and a link
leads to a directory or to nothing. -/
def sourceFiles (tree : FileTree) (root : String) : Except LoadError (List SourceDirectory) :=
  match tree.find false root with
  | .error cause => .error (.unwalkable root cause)
  | .ok location =>
    match tree.entry? location with
    | some (.file _ _) =>
      .ok (if (Path.fileName? root).any isSourceName then [.ofFiles [root]] else [])
    | some (.link _) =>
      match tree.find true root with
      | .error cause => .error (.unwalkable root cause)
      | .ok target =>
        match tree.entry? target with
        | some (.directory _) => .ok (directoriesBelow tree root target)
        | _ => .ok []
    | _ => .ok (directoriesBelow tree root location)

/-- The import path of the package in a directory: below the module, or without one, below the
root. -/
def importPath (module? : Option SourceModule) (root dir : String) : String :=
  match module? with
  | some m =>
    Text.join "/" (m.path :: (Path.relative? m.dir dir).getD [])
  | none =>
    match (Path.relative? root dir).getD [] with
    | [] => "."
    | names => Text.join "/" names

/-- Parses the files of a directory that do not opt out. `package` is the package name that all of
them must have, once there is one. -/
def parseFiles (tree : FileTree) (dir : String) (package : Option String) :
    List String → Reported LoadError (List SourceFile)
  | [] => return []
  | path :: rest =>
    match tree.readText path with
    | .error cause => .ofExcept (.error (.unreadable path cause))
    | .ok text =>
      match isExcluded text with
      | true => do
        .report [.fileIgnored path]
        parseFiles tree dir package rest
      | false => do
        let file ← .ofExcept (SourceFile.parse path text)
        let expected := package.getD file.package
        if file.package = expected then
          let files ← parseFiles tree dir (some expected) rest
          return file :: files
        else .ofExcept (.error (.packageMismatch dir expected file.package))

/-- The package in a directory; none if all its files opt out. -/
def parsePackage (tree : FileTree) (module? : Option SourceModule) (root : String)
    (directory : SourceDirectory) : Reported LoadError (Option SourcePackage) := do
  let sources ← parseFiles tree directory.dir none directory.files
  match sources with
  | [] => return none
  | first :: _ =>
    return some
      { name := first.package
        path := importPath module? root directory.dir
        dir := directory.dir
        files := sources.map (·.path)
        sources }

def parsePackages (tree : FileTree) (module? : Option SourceModule) (root : String) :
    List SourceDirectory → Reported LoadError (List SourcePackage)
  | [] => return []
  | directory :: rest => do
    let package ← parsePackage tree module? root directory
    let packages ← parsePackages tree module? root rest
    return package.toList ++ packages

structure LoadedPackage where
  source : SourcePackage
  definitions : Definitions
  deriving Inhabited

/-- Packages with the declarations of all of them. -/
structure Load where
  table : TypeTable
  packages : List LoadedPackage
  deriving Inhabited

def Load.ofSources (sources : List SourcePackage) : Load where
  table := typeTable sources
  packages := sources.map fun package => ⟨package, package.definitions⟩

/-- The packages below a root, which is an absolute path. -/
def load (tree : FileTree) (root : String) : Reported LoadError Load := do
  let module? ← .ofExcept (findModule tree root)
  let directories ← .ofExcept (sourceFiles tree root)
  let sources ← parsePackages tree module? root directories
  .report (.packagesParsed root sources.length :: receiverEvents sources)
  return .ofSources sources

end ResetMethods

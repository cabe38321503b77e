import ResetMethods.Dict
import ResetMethods.Files.Path

/-!
# ResetMethods.Files.Tree

A file system as a value.

* `Location` : where an entry lies, as the names from the root downwards.
* `FileTree` : the entries by location, in the order in which a sorted walk meets them.
* `FileTree.locate` : follows a path through directories and symbolic links.
* `FileTree.readText`, `FileTree.writeFile`, `FileTree.setMode` : files by path.
* `FileTree.below` : all entries below a directory.

The root itself is a directory without an entry of its own.
-/

namespace ResetMethods

abbrev Location := List String

/-- What lies at a location; files and directories have permission bits. -/
inductive Entry where
  | file (contents : ByteArray) (mode : Nat)
  | directory (mode : Nat)
  | link (target : String)
  deriving Inhabited

abbrev FileTree := Dict Location Entry

def newFileMode : Nat := 0o644

def newDirectoryMode : Nat := 0o755

def linkLimit : Nat := 40

/-- Where a path leads: to an entry, or to a free name in a directory. -/
inductive Place where
  | found (location : Location)
  | vacant (location : Location)
  deriving DecidableEq, Repr, Inhabited

/-- Where following segments ends: at a place, or at a link in the directory `dir`, with the
segments behind the link. -/
inductive Stop where
  | place (place : Place)
  | link (dir : Location) (target : String) (rest : List String)
  deriving DecidableEq, Repr, Inhabited

namespace FileTree

def entry? (t : FileTree) (location : Location) : Option Entry :=
  if location.isEmpty then some (.directory newDirectoryMode) else t.get? location

/-- Follows segments from a location up to the first link. A link at the very end is passed over
only if `follow` asks for it. -/
def descend (t : FileTree) (follow : Bool) (location : Location) :
    List String → Except IoError Stop
  | [] => .ok (.place (.found location))
  | segment :: rest =>
    match t.entry? location with
    | some (.directory _) =>
      if Path.isIdle segment then t.descend follow location rest
      else if segment = ".." then t.descend follow location.dropLast rest
      else
        let next := location ++ [segment]
        match t.entry? next with
        | none => if rest.isEmpty then .ok (.place (.vacant next)) else .error .notFound
        | some (.link target) =>
          if rest.isEmpty && !follow then .ok (.place (.found next))
          else .ok (.link location target rest)
        | some _ => t.descend follow next rest
    | _ => .error .notDirectory

/-- Follows segments through fewer than `fuel` links. -/
def locateWithin (t : FileTree) (follow : Bool) : Nat → Location → List String →
    Except IoError Place
  | 0, _, _ => .error .tooManyLinks
  | fuel + 1, location, segments =>
    match t.descend follow location segments with
    | .error e => .error e
    | .ok (.place place) => .ok place
    | .ok (.link dir target rest) =>
      t.locateWithin follow fuel (if Path.isAbsolute target then [] else dir)
        (Path.segments target ++ rest)

def locate (t : FileTree) (follow : Bool) (path : String) : Except IoError Place :=
  if path.isEmpty then .error .notFound
  else t.locateWithin follow (linkLimit + 1) [] (Path.segments path)

def find (t : FileTree) (follow : Bool) (path : String) : Except IoError Location :=
  match t.locate follow path with
  | .error e => .error e
  | .ok (.vacant _) => .error .notFound
  | .ok (.found location) => .ok location

def lookup (t : FileTree) (follow : Bool) (path : String) : Except IoError Entry :=
  match t.find follow path with
  | .error e => .error e
  | .ok location =>
    match t.entry? location with
    | some entry => .ok entry
    | none => .error .notFound

def isFile (t : FileTree) (path : String) : Bool :=
  match t.lookup true path with
  | .ok (.file _ _) => true
  | _ => false

def readBytes (t : FileTree) (path : String) : Except IoError ByteArray :=
  match t.lookup true path with
  | .error e => .error e
  | .ok (.file contents _) => .ok contents
  | .ok _ => .error .isDirectory

def readText (t : FileTree) (path : String) : Except IoError String :=
  match t.readBytes path with
  | .error e => .error e
  | .ok contents =>
    match String.fromUTF8? contents with
    | some text => .ok text
    | none => .error .invalidText

/-- Replaces the contents of a file and keeps its permission bits, or makes a new file. -/
def writeFile (t : FileTree) (path : String) (contents : ByteArray) : Except IoError FileTree :=
  match t.locate true path with
  | .error e => .error e
  | .ok (.vacant location) => .ok (t.insert location (.file contents newFileMode))
  | .ok (.found location) =>
    match t.entry? location with
    | some (.file _ mode) => .ok (t.insert location (.file contents mode))
    | _ => .error .isDirectory

def withMode (mode : Nat) : Entry → Entry
  | .file contents _ => .file contents mode
  | .directory _ => .directory mode
  | .link target => .link target

/-- Sets the permission bits of what a path leads to. -/
def setMode (t : FileTree) (path : String) (mode : Nat) : Except IoError FileTree :=
  match t.find true path with
  | .error e => .error e
  | .ok location => .ok (t.modify location (withMode mode))

def mode? (t : FileTree) (path : String) : Option Nat :=
  match t.lookup true path with
  | .ok (.file _ mode) => some mode
  | .ok (.directory mode) => some mode
  | _ => none

/-- Makes the directories of some paths that lead nowhere yet, in order. -/
def makeEach (t : FileTree) : List String → Except IoError FileTree
  | [] => .ok t
  | path :: rest =>
    match t.locate true path with
    | .error e => .error e
    | .ok (.found _) => t.makeEach rest
    | .ok (.vacant location) =>
      makeEach (t.insert location (.directory newDirectoryMode)) rest

/-- Makes a directory with all directories that it is written in. -/
def makeDirectories (t : FileTree) (path : String) : Except IoError FileTree :=
  t.makeEach (Path.ancestors path).reverse

def makeLink (t : FileTree) (path target : String) : Except IoError FileTree :=
  match t.locate false path with
  | .error e => .error e
  | .ok (.found _) => .error .alreadyExists
  | .ok (.vacant location) => .ok (t.insert location (.link target))

/-- Removes an entry with all that lies below it. -/
def remove (t : FileTree) (path : String) : Except IoError FileTree :=
  match t.find false path with
  | .error e => .error e
  | .ok location =>
    .ok ⟨t.entries.filter fun e => !location.isPrefixOf e.1, t.sorted.filter _⟩

/-- The entries below a location, each with the names that lead to it from there. -/
def below (t : FileTree) (location : Location) : List (Location × Entry) :=
  t.toList.filterMap fun (key, entry) =>
    match Text.after? location key with
    | some (name :: names) => some (name :: names, entry)
    | _ => none

end FileTree
end ResetMethods

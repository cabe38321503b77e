import ResetMethods.Generation
import ResetMethods.Layout.Canonical

/-!
# ResetMethods.Run

A whole run: load the packages below a root, generate a file for each, lay it out and write it.

* `Strategies` : the three activities that a run leaves to its surroundings, over a state.
* `Outcome` : how a run ended, what it reported, what it handed to the writer, and the state.
* `run` : a run. The first error ends it.
* `Strategies.onDisk` : reading from and writing to a file tree.

A package without source files or without targets is passed over.
-/

namespace ResetMethods

structure GeneratedFile where
  path : String
  package : String
  methods : Nat
  deriving DecidableEq, Repr, Inhabited

/-- The files of a successful run, in the order in which they were written. -/
structure Summary where
  files : List GeneratedFile
  deriving DecidableEq, Repr, Inhabited

/-- A formatter: the layout of a text, or why there is none, and the state behind it. -/
abbrev Formatter (σ : Type) := ByteArray → σ → Except FormatError ByteArray × σ

abbrev Writer (σ : Type) := String → ByteArray → σ → Except IoError Unit × σ

/-- How sources are loaded, generated text is laid out, and files are written. -/
structure Strategies (σ : Type) where
  load : String → σ → Reported LoadError Load
  format : Formatter σ
  write : Writer σ

/-- How a run ended. `writes` holds the path and the contents of each call of the writer. -/
structure Outcome (σ : Type) where
  result : Except RunError Summary
  events : List Event
  writes : List (String × ByteArray)
  state : σ

namespace Outcome

variable {σ : Type}

def failed (e : RunError) (state : σ) : Outcome σ := ⟨.error e, [], [], state⟩

def after (events : List Event) (o : Outcome σ) : Outcome σ :=
  { o with events := events ++ o.events }

def afterWrite (path : String) (contents : ByteArray) (o : Outcome σ) : Outcome σ :=
  { o with writes := (path, contents) :: o.writes }

def afterFile (file : GeneratedFile) (o : Outcome σ) : Outcome σ :=
  { o with
    events := .methodsWritten file.path file.methods :: o.events
    result :=
      match o.result with
      | .ok summary => .ok ⟨file :: summary.files⟩
      | .error e => .error e }

end Outcome

def LoadedPackage.skipEvent? (package : LoadedPackage) : Option Event :=
  match package.source.files, package.targets with
  | [], _ => some (.packageWithoutFiles package.source.path)
  | _, [] => some (.packageWithoutTargets package.source.path)
  | _, _ => none

/-- Generates, lays out and writes the files of some packages in order. -/
def runPackages {σ : Type} (strategies : Strategies σ) (s : Surroundings) :
    List LoadedPackage → σ → Outcome σ
  | [], state => ⟨.ok ⟨[]⟩, [], [], state⟩
  | package :: rest, state =>
    match package.skipEvent? with
    | some event => (runPackages strategies s rest state).after [event]
    | none =>
      let generated := package.generated s
      let path := package.outputPath
      .after (package.generationEvents s) <|
        match strategies.format generated.text.toUTF8 state with
        | (.error cause, state) => .failed (.format package.source.path cause) state
        | (.ok contents, state) =>
          .afterWrite path contents <|
            match strategies.write path contents state with
            | (.error cause, state) => .failed (.write path cause) state
            | (.ok (), state) =>
              (runPackages strategies s rest state).afterFile
                ⟨path, package.source.path, generated.methods.length⟩

/-- What looking for the targets of a load reports. -/
def Load.targetEvents (load : Load) : List Event :=
  load.packages.flatMap fun package => ResetMethods.targetEvents package.source.sources

/-- A run over the packages of a load. All targets are known before the first file is generated. -/
def runLoad {σ : Type} (strategies : Strategies σ) (load : Load) (state : σ) : Outcome σ :=
  (runPackages strategies load.surroundings load.packages state).after load.targetEvents

/-- A run below `root`, for the directory `cwd` at hand. -/
def run {σ : Type} (strategies : Strategies σ) (cwd root : String) (state : σ) : Outcome σ :=
  match Path.absolute cwd root with
  | .error cause => .failed (.unresolvable root cause) state
  | .ok path =>
    let loaded := strategies.load path state
    .after loaded.events <|
      match loaded.result with
      | .error cause => .failed (.load cause) state
      | .ok load => runLoad strategies load state

def canonicalFormatter {σ : Type} : Formatter σ := fun source state =>
  (Layout.canonicalBytes source, state)

def outputMode : Nat := 0o644

/-- Puts contents at a path of a file tree and sets the permission bits. -/
def FileTree.writeOutput (tree : FileTree) (path : String) (contents : ByteArray) :
    Except IoError FileTree :=
  match tree.writeFile path contents with
  | .error e => .error e
  | .ok written => FileTree.setMode written path outputMode

/-- Writes to a file tree, which stays as it is where that fails. -/
def treeWriter : Writer FileTree := fun path contents tree =>
  match tree.writeOutput path contents with
  | .ok tree => (.ok (), tree)
  | .error e => (.error e, tree)

/-- Reading from and writing to a file tree, with a formatter of choice. -/
def Strategies.onDisk (format : Formatter FileTree) : Strategies FileTree where
  load := fun root tree => ResetMethods.load tree root
  format := format
  write := treeWriter

end ResetMethods

import ResetMethods.GeneratedSource
import ResetMethods.Imports.Viewpoint
import ResetMethods.Loading
import ResetMethods.Reset.Synthesis
import ResetMethods.Source.Target

/-!
# ResetMethods.Generation

The generated file of one package.

* `pendingKeys` : the types of a load that are about to receive a method.
* `LoadedPackage.outcomes` : each target with its method, or with the report that it gets none.
* `LoadedPackage.aliases` : the import aliases that the methods need, bound in the order in which
  the methods name packages.
* `LoadedPackage.generated` : the file.
* `LoadedPackage.generationEvents` : what is reported on the way.
-/

namespace ResetMethods

def LoadedPackage.targets (package : LoadedPackage) : List Target :=
  ResetMethods.targets package.source.sources

/-- The types of a load that are about to receive a method. -/
def pendingKeys (packages : List LoadedPackage) : List TypeKey :=
  packages.flatMap fun package =>
    package.targets.map fun target => ⟨package.source.path, target.name⟩

/-- The declarations of a load with the types that are about to receive a method. -/
def Load.surroundings (load : Load) : Surroundings := ⟨load.table, pendingKeys load.packages⟩

namespace LoadedPackage

/-- The receiver of the package's methods, which is none of its identifiers. -/
def receiver (package : LoadedPackage) : String := receiverName package.definitions.keys

def viewpoint (package : LoadedPackage) (table : TypeTable) : Viewpoint :=
  ⟨table, package.source.path⟩

/-- The method for a target, or the report that it gets none. -/
def outcome (package : LoadedPackage) (s : Surroundings) (target : Target) :
    Except Event ResetMethod :=
  match package.definitions.type? target.name with
  | none => .error (.targetNotFound target.name target.file target.line)
  | some named =>
    match ResetMethod.of? s package.receiver named with
    | none => .error (.targetNotStruct target.name)
    | some method => .ok method

def outcomes (package : LoadedPackage) (s : Surroundings) : List (Except Event ResetMethod) :=
  package.targets.map (package.outcome s)

def methods (package : LoadedPackage) (s : Surroundings) : List ResetMethod :=
  (package.outcomes s).filterMap fun
    | .ok method => some method
    | .error _ => none

/-- No alias yet; no identifier of the package and not the receiver may become one. -/
def noAliases (package : LoadedPackage) : AliasTable :=
  .withReserved (package.definitions.keys ++ [package.receiver])

def aliases (package : LoadedPackage) (s : Surroundings) : AliasTable :=
  (package.viewpoint s.table).bindAll package.noAliases
    ((package.methods s).flatMap (·.packages))

def generated (package : LoadedPackage) (s : Surroundings) : GeneratedSource :=
  let aliases := package.aliases s
  let spell := (package.viewpoint s.table).spell aliases
  ⟨package.source.name, aliases.render, (package.methods s).map (·.render spell)⟩

/-- Reports the aliases that one table has and an earlier one has not. -/
def aliasEvents (earlier later : AliasTable) : List Event :=
  (later.bindings.drop earlier.size).map fun b => .aliasBound b.path b.aliasName

/-- Reports what becomes of some targets, from an alias table on. -/
def outcomeEvents (view : Viewpoint) (aliases : AliasTable) :
    List (Except Event ResetMethod) → List Event
  | [] => []
  | .error event :: rest => event :: outcomeEvents view aliases rest
  | .ok method :: rest =>
    let later := view.bindAll aliases method.packages
    aliasEvents aliases later ++ outcomeEvents view later rest

def generationEvents (package : LoadedPackage) (s : Surroundings) : List Event :=
  outcomeEvents (package.viewpoint s.table) package.noAliases (package.outcomes s)

def outputPath (package : LoadedPackage) : String := Path.join package.source.dir outputName

end LoadedPackage
end ResetMethods

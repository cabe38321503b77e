import ResetMethods.Dict
import ResetMethods.Text.Fresh
import ResetMethods.Text.Lines
import ResetMethods.Package

/-!
# ResetMethods.Imports.Aliases

The import aliases of one generated file.

* `AliasTable.bind` : gives a package an alias on first use, namely its name or, where that is
  reserved or bound, the name with the least free suffix.
* `AliasTable.alias?`, `AliasTable.path?` : the two directions of the table.
* `AliasTable.render` : the import block, in the order of the aliases.

A binding is never changed, so an alias handed out once stays right.
-/

namespace ResetMethods

open Text (fresh pieces)

/-- An alias and the import path it stands for. `nameKnown` tells that the package is certain to
declare the name its reference has. -/
structure AliasBinding where
  aliasName : String
  path : String
  nameKnown : Bool
  deriving DecidableEq, Repr, Inhabited

/-- The aliases of one file in the order in which they were bound, and the names that no alias may
take. -/
structure AliasTable where
  reserved : List String
  bindings : List AliasBinding
  deriving Repr, Inhabited

namespace AliasTable

def withReserved (reserved : List String) : AliasTable := ⟨reserved, []⟩

def alias? (t : AliasTable) (path : String) : Option String :=
  (t.bindings.find? (·.path == path)).map (·.aliasName)

def path? (t : AliasTable) (aliasName : String) : Option String :=
  (t.bindings.find? (·.aliasName == aliasName)).map (·.path)

def taken (t : AliasTable) : List String := t.reserved ++ t.bindings.map (·.aliasName)

/-- Binds an alias to the package unless it has one. -/
def bind (t : AliasTable) (package : PackageRef) (nameKnown : Bool) : AliasTable :=
  match t.alias? package.path with
  | some _ => t
  | none =>
    { t with bindings := t.bindings ++ [⟨fresh package.name t.taken, package.path, nameKnown⟩] }

def size (t : AliasTable) : Nat := t.bindings.length

end AliasTable

/-- The line that imports the package. The alias is left out only where the path shows the name
already: the last segment is the alias, and it is certain that the package declares that name. -/
def AliasBinding.line (b : AliasBinding) : String :=
  let last := String.ofList ((pieces '/' b.path.toList).getLast?.getD b.path.toList)
  if b.aliasName ≠ last || !b.nameKnown then "\t" ++ b.aliasName ++ " \"" ++ b.path ++ "\"\n"
  else "\t\"" ++ b.path ++ "\"\n"

namespace AliasTable

def byAlias (t : AliasTable) : List AliasBinding :=
  (Dict.ofList (t.bindings.map fun b => (b.aliasName, b))).values

/-- The import block; nothing when no alias is bound. -/
def render (t : AliasTable) : String :=
  if t.bindings.isEmpty then ""
  else "import (\n" ++ String.join (t.byAlias.map (·.line)) ++ ")\n"

end AliasTable
end ResetMethods

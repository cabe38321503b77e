import ResetMethods.Imports.Aliases
import ResetMethods.Types.Spelling
import ResetMethods.Types.Table

/-!
# ResetMethods.Imports.Viewpoint

Types as seen from one package: local names bare, names of other packages behind an import alias.

* `Viewpoint.bindAll` : binds the aliases that a list of packages needs, in the order of the list.
* `Viewpoint.qualifier` : what stands before a name of a package.
-/

namespace ResetMethods

/-- The package that text is written for, and the declarations it may refer to. -/
structure Viewpoint where
  table : TypeTable
  localPath : String
  deriving Inhabited

namespace Viewpoint

/-- Whether the package surely declares the name it is referred to by: its sources were loaded, or
it belongs to the standard library. -/
def knowsName (v : Viewpoint) (package : PackageRef) : Bool :=
  v.table.hasPackage package.path || isStandardPath package.path

/-- Binds an alias to the package unless it is the local one. -/
def bind (v : Viewpoint) (aliases : AliasTable) (package : PackageRef) : AliasTable :=
  if package.path == v.localPath then aliases
  else aliases.bind package (v.knowsName package)

def bindAll (v : Viewpoint) (aliases : AliasTable) (packages : List PackageRef) : AliasTable :=
  packages.foldl v.bind aliases

def qualifier (v : Viewpoint) (aliases : AliasTable) (package : PackageRef) : String :=
  if package.path == v.localPath then ""
  else (aliases.alias? package.path).getD package.name ++ "."

/-- The text of a type, once its aliases are bound. -/
def spell (v : Viewpoint) (aliases : AliasTable) (ty : Ty) : String :=
  ty.spell (v.qualifier aliases)

end Viewpoint
end ResetMethods

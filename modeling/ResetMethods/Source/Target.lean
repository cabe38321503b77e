import ResetMethods.Event
import ResetMethods.Source.Basic

/-!
# ResetMethods.Source.Target

The structs that ask for a `Reset()` method by a directive in their documentation.

* `directive` : the comment that asks.
* `targets` : the marked structs of some files, in the order of files and declarations. The
  directive may document the declaration or a single type of it. Aliases, types of other shapes and
  generic types are left out.
-/

namespace ResetMethods

def directive : String := "// generate:reset"

/-- A struct to receive a method, and where it is declared. -/
structure Target where
  name : String
  file : String
  line : Nat
  deriving DecidableEq, Repr, Inhabited

def isMarked (doc : Option CommentGroup) : Bool := doc.any (·.hasLine directive)

/-- The marked struct types of a declaration, generic ones included. -/
def TypeDecl.marked (decl : TypeDecl) : List TypeSpec :=
  decl.specs.filter fun spec =>
    (isMarked decl.doc || isMarked spec.doc) && !spec.isAlias && spec.type.isStruct

/-- The marked struct types of a file, generic ones included. -/
def SourceFile.marked (file : SourceFile) : List TypeSpec :=
  file.decls.flatMap fun
    | .types decl => decl.marked
    | _ => []

def SourceFile.targets (file : SourceFile) : List Target :=
  (file.marked.filter (·.typeParams.isEmpty)).map fun spec => ⟨spec.name, file.path, spec.line⟩

def targets (files : List SourceFile) : List Target := files.flatMap (·.targets)

/-- What looking for targets reports: the generic types it leaves out. -/
def targetEvents (files : List SourceFile) : List Event :=
  (files.flatMap (·.marked)).filterMap fun spec =>
    if spec.typeParams.isEmpty then none else some (.genericSkipped spec.name)

end ResetMethods

import ResetMethods.Package
import ResetMethods.Signature
import ResetMethods.Text.Blank

/-!
# ResetMethods.Source.Basic

The package-level declarations of a source file, as written.

* `TypeExpr` : a type expression; `TypeExpr.embeddedName?` is the field name it gives when embedded.
* `CommentGroup` : the comments that document a declaration.
* `TypeSpec`, `TypeDecl`, `FuncDecl`, `Decl` : declarations. Bodies and initial values are not kept.
* `SourceFile` : a file.
-/

namespace ResetMethods

/-- A group of fields that share a type; an embedded field has no name. A tag keeps its quotes. -/
structure FieldDecl (τ : Type) where
  names : List String
  type : τ
  tag : Option String
  deriving Repr, Inhabited

/-- An element of an interface type. A union or an approximation is only noted. -/
inductive InterfaceElem (τ : Type) where
  | method (name : String) (signature : Signature τ)
  | embed (type : τ)
  | constraint
  deriving Repr, Inhabited

/-- A type expression. `other` holds the text of one that has no use here. -/
inductive TypeExpr where
  | ident (name : String)
  | qualified (package : String) (name : String)
  | pointer (elem : TypeExpr)
  | slice (elem : TypeExpr)
  | array (length : String) (elem : TypeExpr)
  | map (key : TypeExpr) (value : TypeExpr)
  | channel (direction : Direction) (elem : TypeExpr)
  | function (signature : Signature TypeExpr)
  | struct (fields : List (FieldDecl TypeExpr))
  | interface (elems : List (InterfaceElem TypeExpr))
  | generic (base : TypeExpr) (args : List TypeExpr)
  | other (text : String)
  deriving Repr, Inhabited

def TypeExpr.isStruct : TypeExpr → Bool
  | .struct _ => true
  | _ => false

def TypeExpr.embeddedName? : TypeExpr → Option String
  | .ident name => some name
  | .qualified _ name => some name
  | .pointer elem => elem.embeddedName?
  | .generic base _ => base.embeddedName?
  | _ => none

/-- Comments on consecutive lines, each as written without trailing white space. -/
structure CommentGroup where
  lines : List String
  deriving DecidableEq, Repr, Inhabited

/-- Whether one of the comments is `line`, trailing white space aside. -/
def CommentGroup.hasLine (group : CommentGroup) (line : String) : Bool :=
  group.lines.any fun l => String.ofList (Text.trimEnd l.toList) == line

/-- One type of a type declaration. `line` is the line of its name, counted from 1. -/
structure TypeSpec where
  doc : Option CommentGroup
  name : String
  typeParams : List String
  isAlias : Bool
  type : TypeExpr
  line : Nat
  deriving Repr, Inhabited

/-- A type declaration, alone or grouped in parentheses. -/
structure TypeDecl where
  doc : Option CommentGroup
  grouped : Bool
  specs : List TypeSpec
  deriving Repr, Inhabited

/-- The receiver of a method: the name of its base type and whether a pointer to it is received. -/
structure Receiver where
  typeName : String
  pointer : Bool
  deriving DecidableEq, Repr, Inhabited

/-- A function, or a method when it has a receiver. -/
structure FuncDecl where
  receiver : Option Receiver
  name : String
  signature : Signature TypeExpr
  deriving Repr, Inhabited

inductive Decl where
  | types (decl : TypeDecl)
  | function (decl : FuncDecl)
  | variables (names : List String)
  | constants (names : List String)
  deriving Repr, Inhabited

/-- An import with the name it is given, if any: an identifier, `_` or `.`. -/
structure ImportSpec where
  name : Option String
  path : String
  deriving DecidableEq, Repr, Inhabited

structure SourceFile where
  path : String
  package : String
  imports : List ImportSpec
  decls : List Decl
  deriving Repr, Inhabited

def SourceFile.typeSpecs (file : SourceFile) : List TypeSpec :=
  file.decls.flatMap fun
    | .types decl => decl.specs
    | _ => []

/-- The functions and methods a file declares, in order. -/
def SourceFile.functions (file : SourceFile) : List FuncDecl :=
  file.decls.filterMap fun
    | .function decl => some decl
    | _ => none

/-- The parsed files of one package, and where they lie. `files` lists their paths. -/
structure SourcePackage where
  name : String
  path : String
  dir : String
  files : List String
  sources : List SourceFile
  deriving Repr, Inhabited

def SourcePackage.ref (package : SourcePackage) : PackageRef := ⟨package.path, package.name⟩

/-- The types the files of a package declare, in order. -/
def SourcePackage.typeSpecs (package : SourcePackage) : List TypeSpec :=
  package.sources.flatMap (·.typeSpecs)

end ResetMethods

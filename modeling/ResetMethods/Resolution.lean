import ResetMethods.Event
import ResetMethods.Source.Basic
import ResetMethods.Types.Table

/-!
# ResetMethods.Resolution

From declarations as written to declarations with every name traced.

* `Scope` : what names mean in a file; `TypeExpr.resolve` resolves a type expression in it.
* `declarations`, `methodsOf` : what the files of some packages declare.
* `typeTable` : all declarations of a load with their methods.
* `definitions` : the identifiers of a package; of two declarations of one name the first counts.
* `resolve` : all of this for the packages of one load.

A name is looked up among the type parameters, then in the package itself, then among the
predeclared names, and last in the packages imported with a dot. A name found nowhere becomes the
invalid type.
-/

namespace ResetMethods

/-- What names mean in a file. `load` holds all packages of the load, and `imports` the packages by
the names they go by, the latest first. -/
structure Scope where
  load : List SourcePackage
  package : PackageRef
  imports : List (String × PackageRef)
  dots : List PackageRef
  typeParams : List String
  deriving Inhabited

/-- The loaded package at a path; the last one where several have it. -/
def loadedAt (load : List SourcePackage) (path : String) : Option SourcePackage :=
  load.reverse.find? (·.path == path)

def packageAt (load : List SourcePackage) (path : String) : PackageRef :=
  match loadedAt load path with
  | some package => package.ref
  | none => .external path

/-- Whether a loaded package declares a type of that name. -/
def declaresType (load : List SourcePackage) (path name : String) : Bool :=
  (loadedAt load path).any fun package => package.typeSpecs.any (·.name == name)

/-- The scope of a file of a package. An import without a name goes by the name of its package. -/
def Scope.ofFile (load : List SourcePackage) (package : PackageRef) (file : SourceFile) : Scope where
  load := load
  package := package
  imports :=
    (file.imports.filterMap fun spec =>
      let target := packageAt load spec.path
      match spec.name with
      | some "_" => none
      | some "." => none
      | some name => some (name, target)
      | none => some (target.name, target)).reverse
  dots := (file.imports.filter (·.name == some ".")).map fun spec => packageAt load spec.path
  typeParams := []

namespace Scope

/-- Whether the package at `path` declares a type of that name. -/
def declares (scope : Scope) (path name : String) : Bool := declaresType scope.load path name

/-- The type that a predeclared identifier denotes. -/
def predeclared? (name : String) : Option Ty :=
  match BasicKind.ofName? name with
  | some kind => some (.basic kind)
  | none =>
    if name == "error" then some (.named ⟨none, "error", []⟩)
    else if name == "any" || name == "comparable" then some (.interface [] [])
    else none

def ident (scope : Scope) (name : String) : Ty :=
  if scope.typeParams.contains name then .typeParam name
  else if scope.declares scope.package.path name then .named ⟨some scope.package, name, []⟩
  else
    match predeclared? name with
    | some ty => ty
    | none =>
      match scope.dots.find? fun dot => scope.declares dot.path name with
      | some dot => .named ⟨some dot, name, []⟩
      | none => .invalid

/-- The type that a name of an imported package denotes. -/
def qualified (scope : Scope) (package name : String) : Ty :=
  match scope.imports.lookup package with
  | some target =>
    if target.path == "unsafe" && name == "Pointer" then .basic .unsafePointer
    else .named ⟨some target, name, []⟩
  | none => .invalid

end Scope

/-- A declared type applied to arguments; nothing else takes arguments. -/
def Ty.applyTo (args : List Ty) : Ty → Ty
  | .named n => .named { n with args }
  | _ => .invalid

mutual

/-- The type that an expression denotes in a scope. -/
def TypeExpr.resolve (scope : Scope) : TypeExpr → Ty
  | .ident name => scope.ident name
  | .qualified package name => scope.qualified package name
  | .pointer elem => .pointer (elem.resolve scope)
  | .slice elem => .slice (elem.resolve scope)
  | .array length elem => .array length (elem.resolve scope)
  | .map key value => .map (key.resolve scope) (value.resolve scope)
  | .channel direction elem => .channel direction (elem.resolve scope)
  | .function signature => .function (Signature.resolve scope signature)
  | .struct fields => .struct (TypeExpr.resolveFields scope fields)
  | .interface elems =>
    .interface (TypeExpr.resolveMethods scope elems) (TypeExpr.resolveEmbeds scope elems)
  | .generic base args => (base.resolve scope).applyTo (TypeExpr.resolveAll scope args)
  | .other _ => .invalid

def TypeExpr.resolveAll (scope : Scope) : List TypeExpr → List Ty
  | [] => []
  | expr :: rest => expr.resolve scope :: TypeExpr.resolveAll scope rest

def Signature.resolve (scope : Scope) : Signature TypeExpr → Signature Ty
  | ⟨params, results, variadic⟩ =>
    ⟨TypeExpr.resolveAll scope params, TypeExpr.resolveAll scope results, variadic⟩

def TypeExpr.resolveFields (scope : Scope) : List (FieldDecl TypeExpr) → List (Field Ty)
  | [] => []
  | group :: rest => FieldDecl.resolve scope group ++ TypeExpr.resolveFields scope rest

/-- The fields of a group: one for each name, or a single embedded field. -/
def FieldDecl.resolve (scope : Scope) : FieldDecl TypeExpr → List (Field Ty)
  | ⟨names, type, tag⟩ =>
    let ty := type.resolve scope
    if names.isEmpty then [⟨type.embeddedName?.getD "", ty, true, tag, scope.package.path⟩]
    else names.map fun name => ⟨name, ty, false, tag, scope.package.path⟩

/-- The methods among the elements of an interface. -/
def TypeExpr.resolveMethods (scope : Scope) : List (InterfaceElem TypeExpr) → List (MethodSpec Ty)
  | [] => []
  | .method name signature :: rest =>
    ⟨name, Signature.resolve scope signature⟩ :: TypeExpr.resolveMethods scope rest
  | _ :: rest => TypeExpr.resolveMethods scope rest

/-- The embedded types among the elements of an interface. -/
def TypeExpr.resolveEmbeds (scope : Scope) : List (InterfaceElem TypeExpr) → List Ty
  | [] => []
  | .embed type :: rest => type.resolve scope :: TypeExpr.resolveEmbeds scope rest
  | _ :: rest => TypeExpr.resolveEmbeds scope rest

end

/-- The declaration of a type of a package, still without methods. -/
def TypeSpec.resolve (scope : Scope) (spec : TypeSpec) : Declaration where
  package := some scope.package
  name := spec.name
  typeParams := spec.typeParams
  isAlias := spec.isAlias
  rhs := spec.type.resolve { scope with typeParams := spec.typeParams }
  methods := []

/-- The declarations that the files of a package hold, in order. -/
def SourcePackage.declarations (load : List SourcePackage) (package : SourcePackage) :
    List Declaration :=
  package.sources.flatMap fun file =>
    file.typeSpecs.map (·.resolve (Scope.ofFile load package.ref file))

/-- A method with the key of the type that its receiver names. -/
structure ReceivedMethod where
  receiver : TypeKey
  method : Method
  deriving Repr, Inhabited

/-- The method that a function declaration with a receiver stands for. -/
def FuncDecl.received? (scope : Scope) (decl : FuncDecl) : Option ReceivedMethod :=
  decl.receiver.map fun receiver =>
    ⟨⟨scope.package.path, receiver.typeName⟩,
      ⟨decl.name, receiver.pointer, decl.signature.resolve scope⟩⟩

/-- The methods that the files of a package hold, in order. -/
def SourcePackage.methods (load : List SourcePackage) (package : SourcePackage) :
    List ReceivedMethod :=
  package.sources.flatMap fun file =>
    file.functions.filterMap (·.received? (Scope.ofFile load package.ref file))

/-- The declarations of a load without their methods. Of two with one key the later stands. -/
def declaredTypes (load : List SourcePackage) : TypeTable :=
  (load.flatMap (·.declarations load)).foldl TypeTable.declare .initial

def receivedMethods (load : List SourcePackage) : List ReceivedMethod :=
  load.flatMap (·.methods load)

/-- Adds a method to the declaration its receiver names, if there is one. -/
def attach (table : TypeTable) (m : ReceivedMethod) : TypeTable :=
  table.modify m.receiver fun d => { d with methods := d.methods ++ [m.method] }

/-- The declarations of a load with their methods. Methods are attached once all types are known,
so a method may come before its type. -/
def typeTable (load : List SourcePackage) : TypeTable :=
  (receivedMethods load).foldl attach (declaredTypes load)

/-- The identifiers that a declaration of the package introduces, with what they denote. -/
def Decl.definitions (package : PackageRef) : Decl → List (String × Definition)
  | .types decl => decl.specs.map fun spec => (spec.name, .type ⟨some package, spec.name, []⟩)
  | .function decl => if decl.receiver.isNone then [(decl.name, .function)] else []
  | .variables names => names.map (·, .variable)
  | .constants names => names.map (·, .constant)

/-- The identifiers of a package. The first declaration of a name counts, and the blank identifier
denotes nothing. -/
def SourcePackage.definitions (package : SourcePackage) : Definitions :=
  let all := package.sources.flatMap fun file =>
    file.decls.flatMap (·.definitions package.ref)
  (all.foldl (fun defs d => defs.insertIfNew d.1 d.2) Dict.empty).erase "_"

/-- Reports the methods whose receiver names no declared type. -/
def receiverEvents (load : List SourcePackage) : List Event :=
  let table := declaredTypes load
  (receivedMethods load).filterMap fun m =>
    if table.contains m.receiver then none
    else some (.unknownReceiver m.receiver.name m.method.name)

structure Resolved where
  table : TypeTable
  definitions : List Definitions
  events : List Event
  deriving Inhabited

def resolve (load : List SourcePackage) : Resolved where
  table := typeTable load
  definitions := load.map (·.definitions)
  events := receiverEvents load

end ResetMethods

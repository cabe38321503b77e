import ResetMethods.Package
import ResetMethods.Signature
import ResetMethods.Types.Kind

/-!
# ResetMethods.Types.Basic

Resolved types and declarations.

* `Ty` : a type, with every name traced to the package that declares it.
* `Named` : a reference to a declared type, possibly with type arguments.
* `Field`, `MethodSpec` : the members of struct and interface types.
* `Declaration` : a declared type name with its right-hand side and its methods.
* `TypeKey` : what identifies a declared type, ordered by package and then by name.
* `Definition` : what an identifier of a package denotes.
-/

namespace ResetMethods

/-- A reference to a declared type. A predeclared name such as `error` has no package. -/
structure Named (τ : Type) where
  package : Option PackageRef
  name : String
  args : List τ
  deriving Repr, Inhabited

/-- A field of a struct type. `package` is the import path of the package that wrote it, and the tag
keeps its quotes. -/
structure Field (τ : Type) where
  name : String
  type : τ
  embedded : Bool
  tag : Option String
  package : String
  deriving Repr, Inhabited

structure MethodSpec (τ : Type) where
  name : String
  signature : Signature τ
  deriving Repr, Inhabited

/-- A type. An array length is the text it was written as. -/
inductive Ty where
  | basic (kind : BasicKind)
  | named (name : Named Ty)
  | pointer (elem : Ty)
  | slice (elem : Ty)
  | array (length : String) (elem : Ty)
  | map (key : Ty) (value : Ty)
  | channel (direction : Direction) (elem : Ty)
  | function (signature : Signature Ty)
  | struct (fields : List (Field Ty))
  | interface (methods : List (MethodSpec Ty)) (embeds : List Ty)
  | typeParam (name : String)
  deriving Repr, Inhabited

def Ty.invalid : Ty := .basic .invalid

/-- Whether the field is visible outside its package. -/
def Field.isExported {τ : Type} (f : Field τ) : Bool := ResetMethods.isExported f.name

/-- The identity of a declared type: import path and name. -/
structure TypeKey where
  package : String
  name : String
  deriving DecidableEq, Repr, Inhabited

instance : Ord TypeKey := ⟨compareLex (compareOn (·.package)) (compareOn (·.name))⟩

instance : Std.TransOrd TypeKey :=
  inferInstanceAs (Std.TransCmp (compareLex (compareOn TypeKey.package) (compareOn TypeKey.name)))

instance : Std.LawfulEqOrd TypeKey where
  eq_of_compare {a b} h := by
    have h' : compareLex (compareOn TypeKey.package) (compareOn TypeKey.name) a b = .eq := h
    rw [compareLex_eq_eq] at h'
    obtain ⟨pa, na⟩ := a
    obtain ⟨pb, nb⟩ := b
    have hp : pa = pb := Std.LawfulEqCmp.eq_of_compare h'.1
    have hn : na = nb := Std.LawfulEqCmp.eq_of_compare h'.2
    rw [hp, hn]

/-- The identity of the type referred to; predeclared names stand under the empty path. -/
def Named.key {τ : Type} (n : Named τ) : TypeKey :=
  ⟨(n.package.map (·.path)).getD "", n.name⟩

structure Method where
  name : String
  pointerReceiver : Bool
  signature : Signature Ty
  deriving Repr, Inhabited

def Method.isReset (m : Method) : Bool :=
  m.name == "Reset" && m.signature.isNullary

/-- Whether an interface asks for `Reset()` here. -/
def MethodSpec.isReset {τ : Type} (m : MethodSpec τ) : Bool :=
  m.name == "Reset" && m.signature.isNullary

/-- A declared type name. For a defined type `rhs` is the source of the underlying type, for an
alias it is the type the name stands for. -/
structure Declaration where
  package : Option PackageRef
  name : String
  typeParams : List String
  isAlias : Bool
  rhs : Ty
  methods : List Method
  deriving Repr, Inhabited

def Declaration.named (d : Declaration) : Named Ty := ⟨d.package, d.name, []⟩

def Declaration.key (d : Declaration) : TypeKey := d.named.key

inductive Definition where
  | type (name : Named Ty)
  | function
  | variable
  | constant
  deriving Repr, Inhabited

end ResetMethods

import ResetMethods.Dict
import ResetMethods.Types.Basic

/-!
# ResetMethods.Types.Table

The declarations of one load, and the walks along their right-hand sides.

* `TypeTable` : declarations by key. `TypeTable.initial` holds the predeclared `error`.
* `TypeTable.unalias` : follows aliases and stops at a defined type.
* `TypeTable.underlying` : follows every declaration and stops at a type literal.
* `TypeTable.declaration` : the declaration behind a name or an alias of it.

A walk looks at `chainLimit` types at most, so it ends on a cycle too.
-/

namespace ResetMethods

/-- The declared types of one load, in the order of their keys. -/
abbrev TypeTable := Dict TypeKey Declaration

/-- How many types a walk along right-hand sides looks at. -/
def chainLimit : Nat := 64

def Declaration.error : Declaration where
  package := none
  name := "error"
  typeParams := []
  isAlias := false
  rhs := .interface [⟨"Error", [], [.basic .string], false⟩] []
  methods := []

namespace TypeTable

/-- Adds a declaration, in place of an earlier one with its key. -/
def declare (t : TypeTable) (d : Declaration) : TypeTable := t.insert d.key d

def initial : TypeTable := declare .empty .error

def lookup (t : TypeTable) (n : Named Ty) : Option Declaration := t.get? n.key

/-- Whether some declaration belongs to the package at `path`. -/
def hasPackage (t : TypeTable) (path : String) : Bool := t.keys.any (·.package == path)

/-- Follows aliases through at most `fuel` types. -/
def unaliasWithin (t : TypeTable) : Nat → Ty → Option Ty
  | 0, _ => none
  | fuel + 1, .named n =>
    match t.lookup n with
    | some d => if d.isAlias then t.unaliasWithin fuel d.rhs else some (.named n)
    | none => some (.named n)
  | _ + 1, ty => some ty

/-- The type an alias stands for; other types stay. `none` when the chain does not end. -/
def unalias (t : TypeTable) (ty : Ty) : Option Ty := t.unaliasWithin chainLimit ty

/-- Follows declarations through at most `fuel` types. -/
def underlyingWithin (t : TypeTable) : Nat → Ty → Option Ty
  | 0, _ => none
  | fuel + 1, .named n =>
    match t.lookup n with
    | some d => t.underlyingWithin fuel d.rhs
    | none => none
  | _ + 1, ty => some ty

/-- The underlying type. `none` when the chain leaves the table or does not end. -/
def underlying (t : TypeTable) (ty : Ty) : Option Ty := t.underlyingWithin chainLimit ty

/-- The declaration behind a type that is a name, once aliases are followed. -/
def declaration (t : TypeTable) (ty : Ty) : Option Declaration :=
  match t.unalias ty with
  | some (.named n) => t.lookup n
  | _ => none

end TypeTable

/-- The identifiers of one package and what they denote. -/
abbrev Definitions := Dict String Definition

/-- The identifiers that denote a type, with the type. -/
def Definitions.types (defs : Definitions) : List (String × Named Ty) :=
  defs.toList.filterMap fun
    | (ident, .type name) => some (ident, name)
    | _ => none

def Definitions.type? (defs : Definitions) (ident : String) : Option (Named Ty) :=
  match defs.get? ident with
  | some (.type name) => some name
  | _ => none

end ResetMethods

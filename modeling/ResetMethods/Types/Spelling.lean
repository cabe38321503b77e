import ResetMethods.Text.Brace
import ResetMethods.Text.Lines
import ResetMethods.Types.Basic

/-!
# ResetMethods.Types.Spelling

Types as source text.

* `Ty.spell` : the text of a type, for a function that gives each package its qualifier.
* `Ty.packages` : the packages the text of a type names, in the order in which it names them.

The text of a type asks for the qualifiers of `Ty.packages` and for no others, so a caller can
choose all qualifiers first and print afterwards.
-/

namespace ResetMethods

open Text (closeBrace join openBrace)

def PackageRef.unsafePackage : PackageRef := ⟨"unsafe", "unsafe"⟩

/-- What a qualifier function writes before a name of an optional package. -/
def qualifierOf (qualifier : PackageRef → String) : Option PackageRef → String
  | some package => qualifier package
  | none => ""

/-- A list in brackets, or nothing for the empty list. -/
def bracketed : List String → String
  | [] => ""
  | items => "[" ++ join ", " items ++ "]"

/-- Results behind a parameter list: nothing, the only result, or a list in parentheses. -/
def spellResults : List String → String
  | [] => ""
  | [single] => " " ++ single
  | results => " (" ++ join ", " results ++ ")"

/-- Members of a struct or interface type between its braces. -/
def spellMembers (keyword : String) : List String → String
  | [] => keyword ++ "{}"
  | members => keyword ++ openBrace ++ " " ++ join "; " members ++ " " ++ closeBrace

/-- A channel type. An element that is itself written as a receive-only channel needs parentheses
when the outer channel has both directions. -/
def spellChannel (direction : Direction) (elem : String) : String :=
  match direction with
  | .send => "chan<- " ++ elem
  | .receive => "<-chan " ++ elem
  | .both =>
    if "<-chan".toList.isPrefixOf elem.toList then "chan (" ++ elem ++ ")" else "chan " ++ elem

mutual

def Ty.spell (qualifier : PackageRef → String) : Ty → String
  | .basic .unsafePointer => qualifier .unsafePackage ++ "Pointer"
  | .basic kind => kind.name
  | .named n => Named.spell qualifier n
  | .pointer elem => "*" ++ elem.spell qualifier
  | .slice elem => "[]" ++ elem.spell qualifier
  | .array length elem => "[" ++ length ++ "]" ++ elem.spell qualifier
  | .map key value => "map[" ++ key.spell qualifier ++ "]" ++ value.spell qualifier
  | .channel direction elem => spellChannel direction (elem.spell qualifier)
  | .function signature => "func" ++ Signature.spell qualifier signature
  | .struct fields => spellMembers "struct" (Ty.spellFields qualifier fields)
  | .interface methods embeds =>
    spellMembers "interface"
      (Ty.spellAll qualifier embeds ++ Ty.spellMethods qualifier methods)
  | .typeParam name => name

/-- The text of a reference to a declared type, with its type arguments. -/
def Named.spell (qualifier : PackageRef → String) : Named Ty → String
  | ⟨package, name, args⟩ =>
    qualifierOf qualifier package ++ name ++ bracketed (Ty.spellAll qualifier args)

def Ty.spellAll (qualifier : PackageRef → String) : List Ty → List String
  | [] => []
  | ty :: rest => ty.spell qualifier :: Ty.spellAll qualifier rest

def Signature.spell (qualifier : PackageRef → String) : Signature Ty → String
  | ⟨params, results, variadic⟩ =>
    "(" ++ join ", " (Ty.spellParams qualifier variadic params) ++ ")" ++
      spellResults (Ty.spellAll qualifier results)

/-- Parameters; the last one of a variadic list is written by its element. -/
def Ty.spellParams (qualifier : PackageRef → String) (variadic : Bool) : List Ty → List String
  | [] => []
  | [.slice elem] =>
    [if variadic then "..." ++ elem.spell qualifier else "[]" ++ elem.spell qualifier]
  | ty :: rest => ty.spell qualifier :: Ty.spellParams qualifier variadic rest

def Ty.spellFields (qualifier : PackageRef → String) : List (Field Ty) → List String
  | [] => []
  | field :: rest => Field.spell qualifier field :: Ty.spellFields qualifier rest

/-- A field: its name unless it is embedded, its type, and its tag if it has one. -/
def Field.spell (qualifier : PackageRef → String) : Field Ty → String
  | ⟨name, type, embedded, tag, _⟩ =>
    (if embedded then "" else name ++ " ") ++ type.spell qualifier ++
      match tag with
      | some t => " " ++ t
      | none => ""

def Ty.spellMethods (qualifier : PackageRef → String) : List (MethodSpec Ty) → List String
  | [] => []
  | method :: rest => MethodSpec.spell qualifier method :: Ty.spellMethods qualifier rest

def MethodSpec.spell (qualifier : PackageRef → String) : MethodSpec Ty → String
  | ⟨name, signature⟩ => name ++ Signature.spell qualifier signature

end

mutual

def Ty.packages : Ty → List PackageRef
  | .basic .unsafePointer => [.unsafePackage]
  | .basic _ => []
  | .named n => Named.packages n
  | .pointer elem => elem.packages
  | .slice elem => elem.packages
  | .array _ elem => elem.packages
  | .map key value => key.packages ++ value.packages
  | .channel _ elem => elem.packages
  | .function signature => Signature.packages signature
  | .struct fields => Ty.packagesOfFields fields
  | .interface methods embeds => Ty.packagesOfAll embeds ++ Ty.packagesOfMethods methods
  | .typeParam _ => []

/-- The packages a reference names, its own first. -/
def Named.packages : Named Ty → List PackageRef
  | ⟨package, _, args⟩ => package.toList ++ Ty.packagesOfAll args

def Ty.packagesOfAll : List Ty → List PackageRef
  | [] => []
  | ty :: rest => ty.packages ++ Ty.packagesOfAll rest

def Signature.packages : Signature Ty → List PackageRef
  | ⟨params, results, _⟩ => Ty.packagesOfAll params ++ Ty.packagesOfAll results

def Ty.packagesOfFields : List (Field Ty) → List PackageRef
  | [] => []
  | field :: rest => Field.packages field ++ Ty.packagesOfFields rest

def Field.packages : Field Ty → List PackageRef
  | ⟨_, type, _, _, _⟩ => type.packages

def Ty.packagesOfMethods : List (MethodSpec Ty) → List PackageRef
  | [] => []
  | method :: rest => MethodSpec.packages method ++ Ty.packagesOfMethods rest

def MethodSpec.packages : MethodSpec Ty → List PackageRef
  | ⟨_, signature⟩ => Signature.packages signature

end

end ResetMethods

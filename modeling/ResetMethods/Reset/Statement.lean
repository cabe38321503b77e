import ResetMethods.Reset.Operand
import ResetMethods.Text.Lines
import ResetMethods.Types.Spelling

/-!
# ResetMethods.Reset.Statement

The statements of a `Reset()` method, and their text.

* `Value` : what an operand is set to.
* `Statement` : how one operand is reset.
* `ResetMethod` : a whole method.
* `Line` : a line of text with its indentation; `Statement.lines` and `ResetMethod.lines` write
  statements and methods for any spelling of types.
* `Statement.packages`, `ResetMethod.packages` : the packages the text names, in order.
-/

namespace ResetMethods

open Text (closeBrace openBrace)

inductive Value where
  /-- The zero literal of a basic type. -/
  | zero (kind : BasicKind)
  /-- The predeclared `nil`. -/
  | null
  /-- The operand itself, cut to length zero. -/
  | emptied
  /-- The composite literal of a type without elements. -/
  | composite (type : Ty)
  /-- The zero value of a type, read through a new pointer. -/
  | blank (type : Ty)
  deriving Repr, Inhabited

inductive Statement where
  /-- An assignment. -/
  | assign (e : Operand) (value : Value)
  /-- The builtin that empties a map. -/
  | clear (e : Operand)
  /-- A call of the operand's own `Reset()`. -/
  | call (e : Operand)
  /-- A statement that runs only if the operand is not `nil`. -/
  | guarded (e : Operand) (body : Statement)
  /-- A call of `Reset()` if the dynamic value of an interface has it. -/
  | callIfAble (e : Operand)
  /-- For a type of unknown shape: `Reset()` through the address, else through the value, whichever
  is found at run time, else the zero value. -/
  | probe (e : Operand) (type : Ty)
  deriving Repr, Inhabited

/-- A line of source text and the number of tabs before it. -/
structure Line where
  indent : Nat
  text : String
  deriving DecidableEq, Repr, Inhabited

def Line.render (l : Line) : String :=
  String.ofList (List.replicate l.indent '\t') ++ l.text ++ "\n"

def renderLines (ls : List Line) : String := String.join (ls.map (·.render))

theorem renderLines_append (a b : List Line) :
    renderLines (a ++ b) = renderLines a ++ renderLines b := by
  simp [renderLines, String.join_append]

def Value.spell (spell : Ty → String) (e : Operand) : Value → String
  | .zero kind => kind.zeroLiteral
  | .null => "nil"
  | .emptied => e.primary ++ "[:0]"
  | .composite type => spell type ++ "{}"
  | .blank type => "*new(" ++ spell type ++ ")"

/-- A type assertion to the interface that asks for `Reset()`, as the condition of a branch. -/
def assertion (subject : String) : String :=
  "if r, ok := " ++ subject ++ ".(interface{ Reset() }); ok " ++ openBrace

namespace Statement

def lines (spell : Ty → String) (indent : Nat) : Statement → List Line
  | .assign e value => [⟨indent, e.value ++ " = " ++ value.spell spell e⟩]
  | .clear e => [⟨indent, "clear(" ++ e.value ++ ")"⟩]
  | .call e => [⟨indent, e.primary ++ ".Reset()"⟩]
  | .guarded e body =>
    ⟨indent, "if " ++ e.value ++ " != nil " ++ openBrace⟩ :: body.lines spell (indent + 1) ++
      [⟨indent, closeBrace⟩]
  | .callIfAble e =>
    [⟨indent, assertion e.primary⟩, ⟨indent + 1, "r.Reset()"⟩, ⟨indent, closeBrace⟩]
  | .probe e type =>
    [⟨indent, assertion ("any(" ++ e.address ++ ")")⟩,
      ⟨indent + 1, "r.Reset()"⟩,
      ⟨indent, closeBrace ++ " else " ++ assertion ("any(" ++ e.value ++ ")")⟩,
      ⟨indent + 1, "r.Reset()"⟩,
      ⟨indent, closeBrace ++ " else " ++ openBrace⟩,
      ⟨indent + 1, e.value ++ " = *new(" ++ spell type ++ ")"⟩,
      ⟨indent, closeBrace⟩]

def types : Statement → List Ty
  | .assign _ (.composite type) => [type]
  | .assign _ (.blank type) => [type]
  | .assign _ _ => []
  | .clear _ => []
  | .call _ => []
  | .guarded _ body => body.types
  | .callIfAble _ => []
  | .probe _ type => [type]

/-- The packages that the statement's text names, in order. -/
def packages (s : Statement) : List PackageRef := s.types.flatMap Ty.packages

end Statement

/-- A `Reset()` method for the type `typeName`, one statement a field. -/
structure ResetMethod where
  receiver : String
  typeName : String
  body : List Statement
  deriving Repr, Inhabited

namespace ResetMethod

/-- The lines of the method. A `nil` receiver returns at once; a blank line follows that guard when
there is a field to reset. -/
def lines (spell : Ty → String) (m : ResetMethod) : List Line :=
  [⟨0, "func (" ++ m.receiver ++ " *" ++ m.typeName ++ ") Reset() " ++ openBrace⟩,
      ⟨1, "if " ++ m.receiver ++ " == nil " ++ openBrace⟩, ⟨2, "return"⟩, ⟨1, closeBrace⟩] ++
    (if m.body.isEmpty then [] else [⟨0, ""⟩]) ++
    m.body.flatMap (·.lines spell 1) ++ [⟨0, closeBrace⟩]

def render (spell : Ty → String) (m : ResetMethod) : String := renderLines (m.lines spell)

/-- The packages that the method's text names, in order. -/
def packages (m : ResetMethod) : List PackageRef := m.body.flatMap Statement.packages

end ResetMethod
end ResetMethods

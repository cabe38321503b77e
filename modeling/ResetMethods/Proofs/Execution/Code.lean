import ResetMethods.Reset.Statement

/-!
# ResetMethods.Proofs.Execution.Code

The text of a `Reset()` method as a syntax tree.

* `PrimaryExpr`, `UnaryExpr`: expressions, as the grammar of the language has them. Only a primary
  expression stands before a selector, a slice or an assertion, so what begins with an operator stands
  there in parentheses.
* `Code`: statements one after the other, branches, and an early return.
* `Code.lines`: the lines of a tree.
* `Statement.code`, `ResetMethod.code`: what a statement and a method say. `Statement.lines_eq_code`,
  `ResetMethod.lines_eq_code`: the lines that are written for them are the lines of these trees.
-/

namespace ResetMethods

open Text (closeBrace openBrace)

/-! ## Expressions -/

mutual

/-- A primary expression behind any operators. -/
inductive UnaryExpr where
  | primary (p : PrimaryExpr)
  | deref (e : UnaryExpr)
  | address (e : UnaryExpr)

inductive PrimaryExpr where
  | name (x : String)
  | literal (text : String)
  /-- The composite literal without elements. -/
  | composite (type : Ty)
  | new (type : Ty)
  | paren (e : UnaryExpr)
  | select (p : PrimaryExpr) (field : String)
  /-- A slice of length zero. -/
  | cut (p : PrimaryExpr)
  /-- A conversion to the empty interface. -/
  | any (e : UnaryExpr)

end

mutual

def UnaryExpr.text (spell : Ty → String) : UnaryExpr → String
  | .primary p => p.text spell
  | .deref e => "*" ++ e.text spell
  | .address e => "&" ++ e.text spell

def PrimaryExpr.text (spell : Ty → String) : PrimaryExpr → String
  | .name x => x
  | .literal text => text
  | .composite type => spell type ++ "{}"
  | .new type => "new(" ++ spell type ++ ")"
  | .paren e => "(" ++ e.text spell ++ ")"
  | .select p field => p.text spell ++ "." ++ field
  | .cut p => p.text spell ++ "[:0]"
  | .any e => "any(" ++ e.text spell ++ ")"

end

/-! ## Statements -/

inductive Code where
  | skip
  | seq (first rest : Code)
  /-- A line with nothing on it. -/
  | blank
  | assign (target value : UnaryExpr)
  /-- The builtin that empties a map. -/
  | clear (e : UnaryExpr)
  /-- A call of `Reset()`. -/
  | call (p : PrimaryExpr)
  /-- A return from the method. -/
  | leave
  | ifNil (e : UnaryExpr) (body : Code)
  | ifNotNil (e : UnaryExpr) (body : Code)
  /-- A branch taken if `Reset()` is found on the dynamic value of an interface, which is the variable
  `r` there. -/
  | ifAble (subject : PrimaryExpr) (body otherwise : Code)

/-- Lines with `front` before the text of the first one. -/
def Line.prepend (front : String) : List Line → List Line
  | [] => []
  | l :: ls => { l with text := front ++ l.text } :: ls

namespace Code

/-- Statements in order. -/
def all : List Code → Code
  | [] => .skip
  | c :: cs => .seq c (all cs)

def lines (spell : Ty → String) (indent : Nat) : Code → List Line
  | .skip => []
  | .seq first rest => first.lines spell indent ++ rest.lines spell indent
  | .blank => [⟨0, ""⟩]
  | .assign target value => [⟨indent, target.text spell ++ " = " ++ value.text spell⟩]
  | .clear e => [⟨indent, "clear(" ++ e.text spell ++ ")"⟩]
  | .call p => [⟨indent, p.text spell ++ ".Reset()"⟩]
  | .leave => [⟨indent, "return"⟩]
  | .ifNil e body =>
    ⟨indent, "if " ++ e.text spell ++ " == nil " ++ openBrace⟩ :: body.lines spell (indent + 1) ++
      [⟨indent, closeBrace⟩]
  | .ifNotNil e body =>
    ⟨indent, "if " ++ e.text spell ++ " != nil " ++ openBrace⟩ :: body.lines spell (indent + 1) ++
      [⟨indent, closeBrace⟩]
  | .ifAble subject body otherwise =>
    ⟨indent, "if r, ok := " ++ subject.text spell ++ ".(interface{ Reset() }); ok " ++ openBrace⟩ ::
      body.lines spell (indent + 1) ++
      match otherwise with
      | .skip => [⟨indent, closeBrace⟩]
      | .ifAble .. => Line.prepend (closeBrace ++ " else ") (otherwise.lines spell indent)
      | _ =>
        ⟨indent, closeBrace ++ " else " ++ openBrace⟩ :: otherwise.lines spell (indent + 1) ++
          [⟨indent, closeBrace⟩]

end Code

/-! ## Operands -/

namespace UnaryExpr

def derefs : Nat → UnaryExpr → UnaryExpr
  | 0, e => e
  | n + 1, e => .deref (derefs n e)

theorem text_derefs (spell : Ty → String) (n : Nat) (e : UnaryExpr) :
    (derefs n e).text spell = Operand.stars n ++ e.text spell := by
  induction n with
  | zero => simp [derefs, Operand.stars]
  | succ n ih => simp [derefs, text, ih, Operand.stars, ← String.toList_inj, List.replicate_succ]

end UnaryExpr

namespace Operand

/-- The field that an operand starts from. -/
def selection (e : Operand) : PrimaryExpr := .select (.name e.receiver) e.field

def expr (e : Operand) : UnaryExpr := .derefs e.derefs (.primary e.selection)

/-- The operand before a selector, a slice or an assertion. -/
def primaryExpr (e : Operand) : PrimaryExpr :=
  if e.derefs = 0 then e.selection else .paren e.expr

/-- The pointer to an operand. -/
def addressExpr (e : Operand) : UnaryExpr :=
  match e.derefs with
  | 0 => .address (.primary e.selection)
  | n + 1 => .derefs n (.primary e.selection)

variable (spell : Ty → String) (e : Operand)

theorem text_selection : e.selection.text spell = e.selector := rfl

theorem text_expr : e.expr.text spell = e.value := by
  rw [expr, UnaryExpr.text_derefs, UnaryExpr.text, text_selection]
  rfl

theorem text_primaryExpr : e.primaryExpr.text spell = e.primary := by
  unfold primaryExpr primary
  split
  · exact e.text_selection spell
  · rw [PrimaryExpr.text, text_expr]

theorem text_addressExpr : e.addressExpr.text spell = e.address := by
  unfold addressExpr address
  cases e.derefs with
  | zero => rfl
  | succ n =>
    simp only
    rw [UnaryExpr.text_derefs, UnaryExpr.text, text_selection]

end Operand

/-! ## What is written -/

def Value.expr (e : Operand) : Value → UnaryExpr
  | .zero kind => .primary (.literal kind.zeroLiteral)
  | .null => .primary (.literal "nil")
  | .emptied => .primary (.cut e.primaryExpr)
  | .composite type => .primary (.composite type)
  | .blank type => .deref (.primary (.new type))

theorem Value.text_expr (spell : Ty → String) (e : Operand) (value : Value) :
    (value.expr e).text spell = value.spell spell e := by
  cases value with
  | emptied =>
    rw [expr, UnaryExpr.text, PrimaryExpr.text, e.text_primaryExpr]
    rfl
  | blank type => simp [expr, UnaryExpr.text, PrimaryExpr.text, Value.spell, ← String.toList_inj]
  | _ => rfl

namespace Statement

def code : Statement → Code
  | .assign e value => .assign e.expr (value.expr e)
  | .clear e => .clear e.expr
  | .call e => .call e.primaryExpr
  | .guarded e body => .ifNotNil e.expr body.code
  | .callIfAble e => .ifAble e.primaryExpr (.call (.name "r")) .skip
  | .probe e type =>
    .ifAble (.any e.addressExpr) (.call (.name "r")) <|
      .ifAble (.any e.expr) (.call (.name "r")) (.assign e.expr ((Value.blank type).expr e))

/-- The lines of a statement are those of its tree. -/
theorem lines_eq_code (spell : Ty → String) (indent : Nat) (statement : Statement) :
    statement.lines spell indent = statement.code.lines spell indent := by
  induction statement generalizing indent with
  | assign e value => rw [lines, code, Code.lines, e.text_expr, value.text_expr]
  | clear e => rw [lines, code, Code.lines, e.text_expr]
  | call e => rw [lines, code, Code.lines, e.text_primaryExpr]
  | guarded e body ih => rw [lines, code, Code.lines, e.text_expr, ih]
  | callIfAble e =>
    simp only [lines, code, Code.lines, e.text_primaryExpr, assertion]
    rfl
  | probe e type =>
    simp only [lines, code, Code.lines, PrimaryExpr.text, e.text_addressExpr, e.text_expr,
      Value.text_expr, assertion, Line.prepend]
    simp [Value.spell, ← String.toList_inj]

end Statement

namespace ResetMethod

/-- What a method says. A blank line follows the guard when there is a field to reset. -/
def code (m : ResetMethod) : Code :=
  .seq (.ifNil (.primary (.name m.receiver)) .leave) <|
    .seq (if m.body.isEmpty then .skip else .blank) (.all (m.body.map (·.code)))

end ResetMethod

theorem Code.lines_all (spell : Ty → String) (indent : Nat) (statements : List Statement) :
    (all (statements.map (·.code))).lines spell indent =
      statements.flatMap (·.lines spell indent) := by
  induction statements with
  | nil => rfl
  | cons st rest ih =>
    rw [List.map_cons, all, lines, ih, List.flatMap_cons, st.lines_eq_code]

/-- The lines of a method are its header, those of its tree, and the brace that ends it. -/
theorem ResetMethod.lines_eq_code (spell : Ty → String) (m : ResetMethod) :
    m.lines spell =
      ⟨0, "func (" ++ m.receiver ++ " *" ++ m.typeName ++ ") Reset() " ++ openBrace⟩ ::
        m.code.lines spell 1 ++ [⟨0, closeBrace⟩] := by
  have hbody := Code.lines_all spell 1 m.body
  cases he : m.body.isEmpty with
  | true => simp [lines, code, Code.lines, UnaryExpr.text, PrimaryExpr.text, hbody, he]
  | false => simp [lines, code, Code.lines, UnaryExpr.text, PrimaryExpr.text, hbody, he]

end ResetMethods

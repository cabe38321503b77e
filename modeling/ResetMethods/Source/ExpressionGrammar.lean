import ResetMethods.Source.TypeGrammar

/-!
# ResetMethods.Source.ExpressionGrammar

The grammar of expressions. Nothing of an expression is kept but its extent.

* `ExpressionGrammar.expression` : operands joined by operators; precedence makes no difference to
  what is accepted.
* `ExpressionGrammar.operand` : an operand, with the ways in which it may go on.
* `ExpressionGrammar.literalValue` : the elements of a composite literal.
-/

namespace ResetMethods
namespace ExpressionGrammar

open ResetMethods.Parser
open Text (closeBrace openBrace)

inductive Shape where
  /-- An identifier, which may also name a type or a package. -/
  | ident
  /-- Something that may name a type: an identifier of a package, a name with arguments. -/
  | typeLike
  /-- A type literal, which needs elements or an operand to become an expression. -/
  | typeLiteral
  /-- A value. -/
  | value
  deriving DecidableEq, Repr, Inhabited

def binaryOperators : List String :=
  ["*", "/", "%", "<<", ">>", "&", "&^", "+", "-", "|", "^", "==", "!=", "<", "<=", ">", ">=",
    "&&", "||"]

def unaryOperators : List String := ["+", "-", "!", "^", "*", "&", "<-"]

def valueWords : List String := ["nil", "true", "false", "iota"]

def inner (g : Grammar) : Parser Unit := g.expression .nested

def arguments (g : Grammar) : Parser Unit := do
  symbol "("
  let _ ← perhaps <| commaList do
    inner g
    let _ ← perhaps (symbol "...")
  symbol ")"

/-- Arguments of a call whose first one is a type. -/
def typeFirstArguments (g : Grammar) : Parser Unit := do
  symbol "("
  let _ ← perhaps do
    let _ ← g.type false
    let _ ← many (symbol "," *> inner g)
    perhaps (symbol ",")
  symbol ")"

def endsEntry (t : Token) : Bool :=
  t.kind == .symbol "," || t.kind == .symbol "]" || t.kind == .symbol ":"

def entry (g : Grammar) : Parser Unit :=
  (do
    inner g
    lookingAt endsEntry) <|>
  (do
    let _ ← TypeGrammar.typeElem g false
    return ())

def upperBounds (g : Grammar) : Parser Unit := do
  symbol ":"
  let high ← perhaps (inner g)
  if high.isSome then
    let _ ← perhaps (symbol ":" *> inner g)
  symbol "]"

def brackets (g : Grammar) : Parser Unit := do
  symbol "["
  if ← atSymbol ":" then upperBounds g
  else
    entry g
    if ← atSymbol ":" then upperBounds g
    else
      let _ ← many (symbol "," *> entry g)
      let _ ← perhaps (symbol ",")
      symbol "]"

def literalElement (g : Grammar) : Parser Unit := do
  if ← atSymbol openBrace then g.literalValue else inner g

/-- The elements of a composite literal, in braces. -/
def literalValue (g : Grammar) : Parser Unit := do
  symbol openBrace
  let _ ← perhaps <| commaSeparated do
    literalElement g
    perhaps (symbol ":" *> literalElement g)
  let _ ← perhaps (symbol ",")
  symbol closeBrace

/-- A function literal, or a function type as the start of a conversion. -/
def functionOperand (g : Grammar) : Parser Shape := do
  word "func"
  let _ ← TypeGrammar.signature g false
  if ← atSymbol openBrace then
    g.block
    return .value
  else return .typeLiteral

/-- An operand in parentheses: an expression, or a type that an operand is converted to. -/
def parenthesized (g : Grammar) : Parser Shape := do
  symbol "("
  (do
    inner g
    symbol ")"
    return .value) <|>
  (do
    let _ ← g.type false
    symbol ")"
    arguments g
    return .value)

/-- An operand that starts with a bracket: an array or slice type with its elements. -/
def bracketOperand (g : Grammar) : Parser Shape :=
  (do
    symbol "["
    symbol "..."
    symbol "]"
    let _ ← g.type false
    g.literalValue
    return .value) <|>
  (do
    let _ ← g.type false
    return .typeLiteral)

def wordOperand (g : Grammar) (w : String) : Parser Shape := do
  if w == "func" then functionOperand g
  else if typeWords.contains w then
    let _ ← g.type false
    return .typeLiteral
  else
    word w
    if valueWords.contains w then return .value
    else if w == "new" || w == "make" then
      let _ ← perhaps (typeFirstArguments g)
      return .ident
    else return .ident

def operand (g : Grammar) : Parser Shape := do
  let t ← peek
  match t.kind with
  | .word w => wordOperand g w
  | .symbol "(" => parenthesized g
  | .symbol "[" => bracketOperand g
  | .literal | .string _ => do
    let _ ← satisfy fun _ => true
    return .value
  | _ => failure

/-- What goes on behind an operand: a selector, an assertion, brackets, arguments or the elements of
a composite literal. -/
def postfixPart (g : Grammar) (ctx : Context) (shape : Shape) : Parser Shape := do
  let t ← peek
  match t.kind with
  | .symbol "." => do
    symbol "."
    if ← atSymbol "(" then
      symbol "("
      let _ ← g.type false
      symbol ")"
      return .value
    else
      let _ ← ident []
      return if shape = .ident then .typeLike else .value
  | .symbol "[" => do
    brackets g
    return if shape = .ident ∨ shape = .typeLike then .typeLike else .value
  | .symbol "(" => do
    arguments g
    return .value
  | .symbol openBrace =>
    if shape = .typeLiteral ∨ ((shape = .ident ∨ shape = .typeLike) ∧ !ctx.header) then do
      g.literalValue
      return .value
    else failure
  | _ => failure

/-- All parts behind an operand, at most `fuel` of them. -/
def postfixParts (g : Grammar) (ctx : Context) : Nat → Shape → Parser Shape
  | 0, shape => return shape
  | fuel + 1, shape => do
    match ← perhaps (inLine ctx.lineEnds (postfixPart g ctx shape)) with
    | some shape' => postfixParts g ctx fuel shape'
    | none => return shape

/-- An operand with its operators and all that follows it. A type alone is no expression. -/
def unaryExpression (g : Grammar) (ctx : Context) : Parser Unit := do
  let _ ← many (symbolOf unaryOperators)
  let shape ← operand g
  let fuel := (← get).length
  let shape ← postfixParts g ctx fuel shape
  if shape = .typeLiteral then failure else return ()

def expression (g : Grammar) (ctx : Context) : Parser Unit := do
  unaryExpression g ctx
  let _ ← many do
    inLine ctx.lineEnds (symbolOf binaryOperators)
    unaryExpression g ctx

/-- Expressions with commas between them; how many. -/
def expressionList (g : Grammar) (ctx : Context) : Parser Nat := do
  let items ← separated (inLine ctx.lineEnds (symbol ",")) (g.expression ctx)
  return items.length

end ExpressionGrammar
end ResetMethods

import ResetMethods.Source.ExpressionGrammar

/-!
# ResetMethods.Source.StatementGrammar

The grammar of statements and of value declarations. Nothing of a statement is kept but its extent,
and of a value declaration only the declared names.

* `StatementGrammar.varDecl`, `StatementGrammar.constDecl` : value declarations.
* `StatementGrammar.statement` : a statement of any kind.
* `StatementGrammar.block` : statements between braces.
-/

namespace ResetMethods
namespace StatementGrammar

open ResetMethods.Parser ExpressionGrammar
open Text (closeBrace openBrace)

/-- One declaration, or declarations in parentheses that all need a terminator. -/
def grouped {α : Type} (p : Parser α) : Parser (List α) := do
  if ← atSymbol "(" then
    symbol "("
    let items ← many (p <* terminator)
    symbol ")"
    return items
  else
    let item ← p
    return [item]

def initializer (g : Grammar) : Parser Unit := inLine true do
  symbol "="
  let _ ← expressionList g .line

/-- Variables that share a type or are initialized together. -/
def varSpec (g : Grammar) : Parser (List String) := do
  let names ← commaSeparated (ident [])
  if ← atSymbol "=" then
    symbol "="
    let _ ← expressionList g .line
  else
    let _ ← g.type true
    let _ ← perhaps (initializer g)
  return names

/-- A variable declaration; the names of its variables. -/
def varDecl (g : Grammar) : Parser (List String) := do
  word "var"
  let specs ← grouped (varSpec g)
  return specs.flatten

/-- The name list of a constant specification holds its commas as names too. -/
def constSpec (g : Grammar) : Parser (List String) := do
  let names ← commaSeparated (ident [])
  let _ ← perhaps do
    let _ ← perhaps (inLine true (g.type true))
    initializer g
  return names.intersperse ","

/-- A constant declaration; the names of its constants. -/
def constDecl (g : Grammar) : Parser (List String) := do
  word "const"
  let specs ← grouped (constSpec g)
  return specs.flatten

/-- Assignment operators, that of short variable declarations among them. -/
def assignOperators : List String :=
  ["=", ":=", "+=", "-=", "*=", "/=", "%=", "&=", "|=", "^=", "<<=", ">>=", "&^="]

/-- What follows the leading expressions of a simple statement; whether these are all of it. -/
def simpleTail (g : Grammar) (ctx : Context) (count : Nat) : Parser Bool :=
  (do
    inLine ctx.lineEnds (symbolOf assignOperators)
    let _ ← expressionList g ctx
    return false) <|>
  if count = 1 then
    (do
      inLine ctx.lineEnds (symbol "<-")
      g.expression ctx
      return false) <|>
    (do
      inLine ctx.lineEnds (symbolOf ["++", "--"])
      return false) <|>
    pure true
  else failure

/-- An expression, a send, an increment, an assignment or a short variable declaration; whether it
is an expression. -/
def simple (g : Grammar) (ctx : Context) : Parser Bool := do
  let count ← expressionList g ctx
  simpleTail g ctx count

def condition (g : Grammar) : Parser Unit := g.expression .head

/-- The header of a conditional: an expression, perhaps behind a simple statement. -/
def conditionHeader (g : Grammar) : Parser Unit := do
  let isExpression ← simple g .head
  if ← atSymbol ";" then
    symbol ";"
    condition g
  else if isExpression then return ()
  else failure

def ifStatement (g : Grammar) : Parser Unit := do
  let branch : Parser Unit := do
    word "if"
    conditionHeader g
    g.block
  branch
  let _ ← many (inLine true (word "else") *> branch)
  let _ ← perhaps (inLine true (word "else") *> g.block)

/-- The clauses of a loop behind its first semicolon. -/
def forClauses (g : Grammar) : Parser Unit := do
  symbol ";"
  let _ ← perhaps (condition g)
  symbol ";"
  let _ ← perhaps (simple g .head)

/-- The header of a loop over the elements of a value. -/
def rangeHeader (g : Grammar) : Parser Unit := do
  let _ ← perhaps do
    let _ ← expressionList g .head
    symbolOf ["=", ":="]
  word "range"
  condition g

/-- The header of a loop: nothing, a range, clauses or a condition. -/
def forHeader (g : Grammar) : Parser Unit := do
  if ← atSymbol openBrace then return ()
  else if ← atSymbol ";" then forClauses g
  else
    rangeHeader g <|> do
      let isExpression ← simple g .head
      if ← atSymbol ";" then forClauses g
      else if isExpression then return ()
      else failure

/-- The header of a switch: perhaps a simple statement, perhaps a value or a type question. -/
def switchHeader (g : Grammar) : Parser Unit := do
  if ← atSymbol openBrace then return ()
  else
    let _ ← simple g .head
    if ← atSymbol ";" then
      symbol ";"
      let _ ← perhaps (simple g .head)

def label : Parser Unit := do
  let _ ← ident statementWords
  symbol ":"

def returnStatement (g : Grammar) : Parser Unit := do
  word "return"
  let _ ← perhaps (inLine true (expressionList g .line))

/-- A jump out of a statement, perhaps with the label of that statement. -/
def jump (w : String) : Parser Unit := do
  word w
  let _ ← perhaps (inLine true (ident []))

def callStatement (g : Grammar) (w : String) : Parser Unit := do
  word w
  g.expression .line

/-- What a case of a select waits for: a send or a receive. -/
def communication (g : Grammar) : Parser Unit := do
  let count ← expressionList g .nested
  if (← perhaps (symbolOf ["=", ":="])).isSome then g.expression .nested
  else if count = 1 then
    let _ ← perhaps (symbol "<-" *> g.expression .nested)
  else failure

def alternatives (g : Grammar) : Parser Unit :=
  (do
    let _ ← expressionList g .nested
    lookingAt (·.kind == .symbol ":")) <|>
  (do
    let _ ← commaSeparated (g.type false))

/-- Statements with terminators between them. A label may stand alone at the end. -/
def statementList (statement : Parser Unit) : Parser Unit :=
  (do
    let _ ← separated terminator statement
    let _ ← perhaps (terminator *> perhaps label)) <|>
  label

/-- The clauses of a switch or a select, in braces; `head` reads what a case asks. -/
def clauses (head statement : Parser Unit) : Parser Unit := do
  symbol openBrace
  let _ ← many do
    (word "case" *> head) <|> word "default"
    symbol ":"
    perhaps (statementList statement)
  symbol closeBrace

/-- A statement that the word `w` starts. The statements nested in it are read by `statement`. -/
def wordStatement (g : Grammar) (statement : Parser Unit) (w : String) : Parser Unit :=
  match w with
  | "var" => do
    let _ ← varDecl g
  | "const" => do
    let _ ← constDecl g
  | "type" => do
    let _ ← TypeGrammar.typeDecl g none
  | "return" => returnStatement g
  | "go" | "defer" => callStatement g w
  | "if" => ifStatement g
  | "for" => do
    word w
    forHeader g
    g.block
  | "switch" => do
    word w
    switchHeader g
    clauses (alternatives g) statement
  | "select" => do
    word w
    clauses (communication g) statement
  | "fallthrough" => word w
  | "break" | "continue" => jump w
  | "goto" => do
    word w
    let _ ← ident []
  | "case" | "default" => failure
  | _ => do
    let _ ← simple g .line

def unlabeled (g : Grammar) (statement : Parser Unit) : Parser Unit := do
  let t ← peek
  match t.kind with
  | .word w => wordStatement g statement w
  | .symbol openBrace => g.block
  | .symbol ";" => symbol ";"
  | _ => do
    let _ ← simple g .line

/-- A statement behind any number of labels. `fuel` bounds how deep clauses nest. -/
def statementWithin (g : Grammar) : Nat → Parser Unit
  | 0 => failure
  | fuel + 1 => do
    let _ ← many label
    unlabeled g (statementWithin g fuel)

def statement (g : Grammar) : Parser Unit := fun ts => statementWithin g ts.length ts

def block (g : Grammar) : Parser Unit := do
  symbol openBrace
  let _ ← perhaps (statementList (statement g))
  symbol closeBrace

end StatementGrammar
end ResetMethods

import ResetMethods.Source.StatementGrammar
import ResetMethods.Failure

/-!
# ResetMethods.Source.FileGrammar

The grammar of source files.

* `grammar` : the rules with their nested parts, nested as deep as the text can be.
* `FileGrammar.item` : a package clause, an import, a declaration or a statement.
* `SourceFile.parse` : the declarations of a text, or why it is no source file.

Items may stand in any order. Statements are read and not kept, and of several package clauses the
last one counts.
-/

namespace ResetMethods

/-- The rules of the grammar, whose nested parts go `n` levels deep. -/
def grammar : Nat → Grammar
  | 0 => Grammar.none
  | n + 1 =>
    { type := fun lineEnds ts => TypeGrammar.typeExpr (grammar n) lineEnds ts
      expression := fun ctx ts => ExpressionGrammar.expression (grammar n) ctx ts
      literalValue := fun ts => ExpressionGrammar.literalValue (grammar n) ts
      block := fun ts => StatementGrammar.block (grammar n) ts }

inductive FileItem where
  | package (name : String)
  | imports (specs : List ImportSpec)
  | declaration (decl : Decl)
  | statement
  deriving Repr, Inhabited

/-- Whether the end of the text can end the item. Types and variables need a line break. -/
def FileItem.mayEndText : FileItem → Bool
  | .declaration (.types _) => false
  | .declaration (.variables _) => false
  | _ => true

namespace FileGrammar

open ResetMethods.Parser

def packageClause : Parser FileItem := do
  word "package"
  let name ← ident []
  return .package name

/-- The name an import is given: an identifier, the blank one among them, or a dot. -/
def importName : Parser String :=
  (do
    symbol "."
    return ".") <|> ident []

/-- An import. Its path is the text without quotes; one with an empty path imports nothing. -/
def importSpec : Parser (Option ImportSpec) := do
  let name ← perhaps importName
  let text ← stringLiteral
  let path := String.ofList (Text.stripEnds (fun c => c == '"' || c == '\x60') text.toList)
  return if path.isEmpty then none else some ⟨name, path⟩

/-- Imports: a single one, or some in parentheses with terminators between them. -/
def importDecl : Parser FileItem := do
  word "import"
  if ← atSymbol "(" then
    symbol "("
    let specs ← perhaps (separated terminator importSpec)
    let _ ← perhaps terminator
    symbol ")"
    return .imports ((specs.getD []).filterMap id)
  else
    let spec ← importSpec
    return .imports spec.toList

/-- The base type of a receiver, and whether a pointer to it is received. Other types than a local
one behind pointers and arguments receive nothing. -/
def receiverOf (pointer : Bool) : TypeExpr → Option Receiver
  | .ident name => some ⟨name, pointer⟩
  | .pointer elem => receiverOf true elem
  | .generic base _ => receiverOf pointer base
  | _ => none

/-- The receiver that a parameter list stands for: its first parameter that is not variadic. -/
def receiver (entries : List TypeGrammar.Parameter) : Option Receiver :=
  match entries.find? (!·.variadic) with
  | some entry => receiverOf false entry.type
  | none => none

/-- The parameters, the results and the body, if any, of a function. -/
def functionRest (g : Grammar) : Parser (Signature TypeExpr) := do
  let signature ← TypeGrammar.signature g true
  let _ ← perhaps (inLine true g.block)
  return signature

/-- A function or a method. Only a function may have type parameters. -/
def functionDecl (g : Grammar) : Parser FileItem := do
  word "func"
  if ← atSymbol "(" then
    let entries ← TypeGrammar.parameters g
    let name ← ident []
    let signature ← functionRest g
    return .declaration (.function ⟨receiver entries, name, signature⟩)
  else
    let name ← ident []
    let _ ← perhaps (TypeGrammar.typeParams g)
    let signature ← functionRest g
    return .declaration (.function ⟨none, name, signature⟩)

def statement (g : Grammar) : Parser FileItem := do
  StatementGrammar.statement g
  return .statement

/-- An item. `trailing` is the row on which the item before it ends. -/
def item (g : Grammar) (trailing : Option Nat) : Parser FileItem := do
  let t ← peek
  match t.kind with
  | .word "package" => packageClause
  | .word "import" => importDecl
  | .word "func" => functionDecl g <|> statement g
  | .word "type" => do
    let decl ← TypeGrammar.typeDecl g trailing
    return .declaration (.types decl)
  | .word "var" => do
    let names ← StatementGrammar.varDecl g
    return .declaration (.variables names)
  | .word "const" => do
    let names ← StatementGrammar.constDecl g
    return .declaration (.constants names)
  | _ => statement g

/-- Whether the next token is the end of the text. -/
def atEnd : Parser Bool := do
  let t ← peek
  return t.kind == .eof

/-- The items up to the end of the text, at most `fuel` of them. -/
def items (g : Grammar) : Nat → Option Nat → Parser (List FileItem)
  | 0, _ => failure
  | fuel + 1, trailing => do
    if ← atEnd then return []
    else
      let first ← item g trailing
      match ← perhaps TypeGrammar.elementEnd with
      | some trailing => do
        let rest ← items g fuel trailing
        return first :: rest
      | none => if (← atEnd) && first.mayEndText then return [first] else failure

def read? (text : List Char) : Option (List FileItem) :=
  let tokens := tokenize text
  (items (grammar (2 * tokens.length + 8)) (tokens.length + 1) none tokens).map (·.1)

end FileGrammar

/-- The package name that some items give a file. -/
def packageName (items : List FileItem) : String :=
  items.foldl
    (fun name item =>
      match item with
      | .package found => found
      | _ => name)
    ""

/-- The source file of a text, or why it is none. -/
def SourceFile.parse (path text : String) : Except LoadError SourceFile :=
  match FileGrammar.read? text.toList with
  | none => .error (.malformed path)
  | some items =>
    if packageName items = "" then .error (.missingPackage path)
    else
      .ok
        { path
          package := packageName items
          imports := items.flatMap fun
            | .imports specs => specs
            | _ => []
          decls := items.filterMap fun
            | .declaration decl => some decl
            | _ => none }

end ResetMethods

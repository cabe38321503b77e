import ResetMethods.Source.Grammar

/-!
# ResetMethods.Source.TypeGrammar

The grammar of types, parameter lists and type declarations.

* `TypeGrammar.typeExpr` : a type.
* `TypeGrammar.parameters`, `TypeGrammar.signature` : parameter lists and signatures.
* `TypeGrammar.typeDecl` : a type declaration.

Where brackets behind a name can be read in two ways, the order of the alternatives decides: a type
declaration has an array type rather than type parameters, a field alone on its line is an embedded
generic type rather than an array.
-/

namespace ResetMethods
namespace TypeGrammar

open ResetMethods.Parser
open Text (closeBrace openBrace)

/-- A type or a union of types, and whether it is exactly one type without a tilde. -/
def typeElem (g : Grammar) (lineEnds : Bool) : Parser (TypeExpr × Bool) := do
  let first ← peek
  let (types, text) ←
    withText (separated (inLine lineEnds (symbol "|")) (g.type lineEnds))
  match types with
  | [single] => return (single, first.kind != .symbol "~")
  | _ => return (.other text, false)

def typeArgs (g : Grammar) : Parser (List TypeExpr) := do
  symbol "["
  let args ← commaList (typeElem g false)
  symbol "]"
  return args.map (·.1)

/-- A type name, perhaps of another package, perhaps with type arguments. -/
def typeName (g : Grammar) (lineEnds : Bool) : Parser TypeExpr := do
  let name ← ident typeWords
  let base ←
    (do
      inLine lineEnds (symbol ".")
      let member ← ident []
      return TypeExpr.qualified name member) <|> pure (TypeExpr.ident name)
  match ← perhaps (inLine lineEnds (typeArgs g)) with
  | some args => return .generic base args
  | none => return base

/-- An entry of a parameter list: how many parameters of which type, and whether it is variadic. -/
structure Parameter where
  count : Nat
  variadic : Bool
  type : TypeExpr
  deriving Inhabited

/-- What may follow an entry of a parameter list. -/
def endsParameter (t : Token) : Bool := t.kind == .symbol "," || t.kind == .symbol ")"

/-- An entry of a parameter list: a variadic parameter, names with their type, or a type. -/
def parameter (g : Grammar) : Parser Parameter :=
  (do
    let _ ← perhaps (ident typeWords)
    symbol "..."
    let type ← g.type false
    return ⟨1, true, type⟩) <|>
  (do
    let names ← commaSeparated (ident typeWords)
    let type ← g.type false
    lookingAt endsParameter
    return ⟨names.length, false, type⟩) <|>
  (do
    let type ← g.type false
    return ⟨1, false, type⟩)

def parameters (g : Grammar) : Parser (List Parameter) := do
  symbol "("
  let entries ← perhaps (commaSeparated (parameter g))
  let _ ← perhaps (symbol ",")
  symbol ")"
  return entries.getD []

/-- The types of a parameter list, one for each parameter. -/
def parameterTypes (entries : List Parameter) : List TypeExpr :=
  entries.flatMap fun p => List.replicate p.count (if p.variadic then .slice p.type else p.type)

/-- Results: a list in parentheses, a type, or nothing. -/
def results (g : Grammar) (lineEnds : Bool) : Parser (List TypeExpr) := do
  let found ← perhaps <| inLine lineEnds do
    if ← atSymbol "(" then
      let entries ← parameters g
      return parameterTypes entries
    else
      let type ← g.type lineEnds
      return [type]
  return found.getD []

def signature (g : Grammar) (lineEnds : Bool) : Parser (Signature TypeExpr) := do
  let entries ← parameters g
  let results ← results g lineEnds
  return ⟨parameterTypes entries, results, entries.any (·.variadic)⟩

/-- Elements between braces, each ended by a line break or a semicolon; the last one need not be. -/
def inBraces {α : Type} (p : Parser α) : Parser (List α) := do
  symbol openBrace
  let items ← perhaps do
    let items ← separated terminator p
    let _ ← perhaps terminator
    return items
  symbol closeBrace
  return items.getD []

def endsField (t : Token) : Bool :=
  t.newline || t.kind == .symbol ";" || t.kind == .symbol closeBrace

def tag : Parser (Option String) := perhaps (inLine true stringLiteral)

/-- A field declaration: an embedded pointer, an embedded type, or names with their type. -/
def field (g : Grammar) : Parser (FieldDecl TypeExpr) :=
  (do
    symbol "*"
    let type ← typeName g true
    let tag ← tag
    return ⟨[], .pointer type, tag⟩) <|>
  (do
    let type ← typeName g true
    let tag ← tag
    lookingAt endsField
    return ⟨[], type, tag⟩) <|>
  (do
    let names ← commaSeparated (ident [])
    let type ← g.type true
    let tag ← tag
    return ⟨names, type, tag⟩)

/-- An element of an interface: a method, or a type. -/
def interfaceElem (g : Grammar) : Parser (InterfaceElem TypeExpr) :=
  (do
    let name ← ident typeWords
    lookingAt (·.kind == .symbol "(")
    let signature ← signature g true
    return .method name signature) <|>
  (do
    let (type, plain) ← typeElem g true
    return if plain then .embed type else .constraint)

/-- The rest of a channel type behind `chan`. An arrow between two of these words belongs to the
second one, as long as that makes a receive-only channel of it. -/
def channelRest (g : Grammar) (lineEnds : Bool) : Parser TypeExpr := do
  let pairs ← many do
    symbol "<-"
    word "chan"
  let sends := (← perhaps (symbol "<-")).isSome
  let elem ← g.type lineEnds
  if sends then
    return pairs.foldr (fun _ ty => .channel .send ty) (.channel .send elem)
  else
    return .channel .both (pairs.foldr (fun _ ty => .channel .receive ty) elem)

/-- A type that starts with brackets: a slice or an array. -/
def bracketType (g : Grammar) (lineEnds : Bool) : Parser TypeExpr := do
  symbol "["
  if ← atSymbol "]" then
    symbol "]"
    let elem ← g.type lineEnds
    return .slice elem
  else
    let (_, length) ← withText (g.expression .nested)
    symbol "]"
    let elem ← g.type lineEnds
    return .array length elem

def wordType (g : Grammar) (lineEnds : Bool) : String → Parser TypeExpr
  | "struct" => do
    word "struct"
    let fields ← inBraces (field g)
    return .struct fields
  | "interface" => do
    word "interface"
    let elems ← inBraces (interfaceElem g)
    return .interface elems
  | "map" => do
    word "map"
    symbol "["
    let key ← g.type false
    symbol "]"
    let value ← g.type lineEnds
    return .map key value
  | "chan" => do
    word "chan"
    channelRest g lineEnds
  | "func" => do
    word "func"
    let signature ← signature g lineEnds
    return .function signature
  | _ => typeName g lineEnds

def typeExpr (g : Grammar) (lineEnds : Bool) : Parser TypeExpr := do
  let t ← peek
  match t.kind with
  | .word w => wordType g lineEnds w
  | .symbol "(" => do
    symbol "("
    let type ← g.type false
    symbol ")"
    return type
  | .symbol "*" => do
    symbol "*"
    let elem ← g.type lineEnds
    return .pointer elem
  | .symbol "[" => bracketType g lineEnds
  | .symbol "<-" => do
    symbol "<-"
    word "chan"
    let elem ← g.type lineEnds
    return .channel .receive elem
  | .symbol "~" => do
    let (_, text) ← withText (symbol "~" *> g.type lineEnds)
    return .other text
  | _ => failure

def typeParams (g : Grammar) : Parser (List String) := do
  symbol "["
  let groups ← commaList do
    let names ← commaSeparated (ident [])
    let _ ← typeElem g false
    return names
  symbol "]"
  return groups.flatten

def endRow : Parser Nat := do
  let t ← peek
  return t.previousRow

/-- A single type of a declaration. `trailing` is the row on which the type before it ends. -/
def typeSpec (g : Grammar) (trailing : Option Nat) : Parser TypeSpec := do
  let (name, t) ← identToken []
  let spec (params : List String) (isAlias : Bool) (type : TypeExpr) : TypeSpec :=
    ⟨docAbove trailing t, name, params, isAlias, type, t.row + 1⟩
  (do
    symbol "="
    let type ← g.type true
    return spec [] true type) <|>
  (do
    let type ← g.type true
    return spec [] false type) <|>
  (do
    let params ← typeParams g
    let type ← g.type true
    return spec params false type)

/-- Whether comments stand before a semicolon that comes next. They separate what comes behind it
from the element before. -/
def commentBeforeSemicolon : Parser Bool := do
  let t ← peek
  return !t.newline && t.kind == .symbol ";" && !t.comments.isEmpty

/-- Reads the end of an element. The result is the row to which a trailing comment of the element
belongs. -/
def elementEnd : Parser (Option Nat) := do
  let row ← endRow
  let separated ← commentBeforeSemicolon
  terminator
  return if separated then none else some row

/-- The types of a group, at most `fuel` of them. -/
def typeSpecs (g : Grammar) : Nat → Option Nat → Parser (List TypeSpec)
  | 0, _ => return []
  | fuel + 1, trailing => do
    if ← atSymbol ")" then return []
    else
      let spec ← typeSpec g trailing
      let trailing ← elementEnd
      let rest ← typeSpecs g fuel trailing
      return spec :: rest

/-- A type declaration. `trailing` is the row on which the element before it ends. -/
def typeDecl (g : Grammar) (trailing : Option Nat) : Parser TypeDecl := do
  let t ← peek
  let doc := docAbove trailing t
  word "type"
  if ← atSymbol "(" then
    symbol "("
    let fuel := (← get).length
    let specs ← typeSpecs g fuel none
    symbol ")"
    return ⟨doc, true, specs⟩
  else
    let spec ← typeSpec g none
    return ⟨doc, false, [spec]⟩

end TypeGrammar
end ResetMethods

import ResetMethods.Source.Token

/-!
# ResetMethods.Source.Parser

Parsers that read tokens from the front of a list.

* `Parser` : reads some tokens or fails; a choice that fails reads nothing.
* `Parser.symbol`, `Parser.word`, `Parser.ident` : single tokens.
* `Parser.many`, `Parser.separated` : repetition.
* `Parser.terminator` : the end of a declaration or statement, a line break or a semicolon.
* `Parser.inLine` : what may only go on where no line break has ended the construct.
-/

namespace ResetMethods

abbrev Parser := StateT (List Token) Option

namespace Parser

def peek : Parser Token := fun ts =>
  match ts with
  | t :: _ => some (t, ts)
  | [] => none

def satisfy (p : Token → Bool) : Parser Token := fun ts =>
  match ts with
  | t :: rest => if p t then some (t, rest) else none
  | [] => none

def symbol (s : String) : Parser Unit := do
  let _ ← satisfy (·.kind == .symbol s)
  return ()

def symbolOf (ss : List String) : Parser Unit := do
  let _ ← satisfy fun t =>
    match t.kind with
    | .symbol s => ss.contains s
    | _ => false
  return ()

def word (w : String) : Parser Unit := do
  let _ ← satisfy (·.kind == .word w)
  return ()

/-- An identifier other than those of a list, with its token. -/
def identToken (except : List String) : Parser (String × Token) := fun ts =>
  match ts with
  | t :: rest =>
    match t.kind with
    | .word name => if except.contains name then none else some ((name, t), rest)
    | _ => none
  | [] => none

/-- An identifier. A keyword counts as one wherever it cannot mean anything else. -/
def ident (except : List String) : Parser String := do
  let (name, _) ← identToken except
  return name

def stringLiteral : Parser String := fun ts =>
  match ts with
  | t :: rest =>
    match t.kind with
    | .string text => some (text, rest)
    | _ => none
  | [] => none

/-- Whether the next token is the operator or delimiter `s`. -/
def atSymbol (s : String) : Parser Bool := do
  let t ← peek
  return t.kind == .symbol s

/-- Succeeds where `p` holds of the next token, and reads nothing. -/
def lookingAt (p : Token → Bool) : Parser Unit := do
  let t ← peek
  if p t then return () else failure

def perhaps {α : Type} (p : Parser α) : Parser (Option α) :=
  (some <$> p) <|> pure none

def manyWithin {α : Type} (p : Parser α) : Nat → Parser (List α)
  | 0 => pure []
  | n + 1 => do
    match ← perhaps p with
    | some a => do
      let rest ← manyWithin p n
      return a :: rest
    | none => return []

/-- As many repetitions as possible. Each reads a token at least. -/
def many {α : Type} (p : Parser α) : Parser (List α) := fun ts => manyWithin p ts.length ts

/-- One or more, with a separator between neighbours. -/
def separated {α : Type} (separator : Parser Unit) (p : Parser α) : Parser (List α) := do
  let first ← p
  let rest ← many (separator *> p)
  return first :: rest

def commaSeparated {α : Type} (p : Parser α) : Parser (List α) := separated (symbol ",") p

/-- One or more with commas between them and perhaps one behind. -/
def commaList {α : Type} (p : Parser α) : Parser (List α) := do
  let items ← commaSeparated p
  let _ ← perhaps (symbol ",")
  return items

/-- A line break, which stays no obstacle to what comes next, or a semicolon. -/
def terminator : Parser Unit := fun ts =>
  match ts with
  | t :: rest =>
    if t.newline then some ((), { t with newline := false } :: rest)
    else if t.kind == .symbol ";" then some ((), rest)
    else none
  | [] => none

/-- The parser, unless line breaks count and one stands before the next token. -/
def inLine {α : Type} (lineEnds : Bool) (p : Parser α) : Parser α := do
  let t ← peek
  if lineEnds && t.newline then failure else p

/-- What a parser reads, with its source text from the first to the last token. -/
def withText {α : Type} (p : Parser α) : Parser (α × String) := do
  let first ← peek
  let a ← p
  let next ← peek
  return (a, String.ofList (first.rest.take (next.previousStop - first.start)))

end Parser
end ResetMethods

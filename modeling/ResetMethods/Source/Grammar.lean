import ResetMethods.Source.Parser

/-!
# ResetMethods.Source.Grammar

The four nonterminals through which the grammar refers to itself, and the words with a fixed
meaning.

* `Context` : what the surroundings of an expression allow.
* `Grammar` : parsers for types, expressions, literal values and blocks. Each rule of the grammar
  takes such a record for its nested parts, so no rule refers to itself.
-/

namespace ResetMethods

/-- The surroundings of an expression: whether a line break ends it, and whether it stands in the
header of a statement, where an opening brace starts the statement's block. -/
structure Context where
  lineEnds : Bool
  header : Bool
  deriving DecidableEq, Repr, Inhabited

namespace Context

def nested : Context := ⟨false, false⟩

def line : Context := ⟨true, false⟩

def head : Context := ⟨false, true⟩

end Context

/-- Parsers for the nested parts. A type is told whether a line break ends it. -/
structure Grammar where
  type : Bool → Parser TypeExpr
  expression : Context → Parser Unit
  literalValue : Parser Unit
  block : Parser Unit

def Grammar.none : Grammar := ⟨fun _ => failure, fun _ => failure, failure, failure⟩

def typeWords : List String := ["struct", "interface", "map", "chan", "func"]

/-- The words that start a statement or a clause of one. -/
def statementWords : List String :=
  ["var", "const", "type", "return", "go", "defer", "if", "for", "switch", "select", "case",
    "default", "fallthrough", "break", "continue", "goto"]

end ResetMethods

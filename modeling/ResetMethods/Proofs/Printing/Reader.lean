import ResetMethods.Proofs.Layout.Closed
import ResetMethods.Types.Spelling

/-!
# ResetMethods.Proofs.Printing.Reader

Reading the text of a type.

* `Reader`: what a beginning of a text says, and the rest of the text.
* `Lexicon`: what the names in a text mean.
* `Lexicon.readType`: the type at the beginning of a text. It is told from what follows by one
  character, or by two if the first is a space.
-/

namespace ResetMethods

/-- Reads a beginning of a text and gives the rest. -/
abbrev Reader (α : Type) := List Char → Option (α × List Char)

/-- What the names in the text of a type mean. -/
structure Lexicon where
  /-- The import path of the package that the text is written for. -/
  host : String
  /-- The type parameters. -/
  params : List String
  /-- The import path that a qualifier stands for. -/
  owner : String → Option String

/-- The words that a type can start with and no name can be. -/
def typeKeywords : List String := ["map", "chan", "func", "struct", "interface"]

/-- What a type can start with. -/
def startsType (c : Char) : Bool := isWordChar c || c == '*' || c == '[' || c == '<'

/-! ## Words, lists and literals -/

def readWord (cs : List Char) : String × List Char :=
  (String.ofList (cs.takeWhile isWordChar), cs.dropWhile isWordChar)

/-- One character. -/
def expect (c : Char) : List Char → Option (List Char)
  | [] => none
  | d :: cs => if d = c then some cs else none

/-- Some items, at most `fuel` of them, with a separator and a space between two. -/
def readEach {α : Type} (item : Reader α) (separator : Char) : Nat → Reader (List α)
  | 0, _ => none
  | fuel + 1, cs => do
    let (x, cs) ← item cs
    match cs with
    | c :: ' ' :: cs =>
      if c = separator then
        let (xs, cs) ← readEach item separator fuel cs
        some (x :: xs, cs)
      else some ([x], c :: ' ' :: cs)
    | cs => some ([x], cs)

/-- What is left of a quoted literal, with its end. -/
def readQuoted : Reader (List Char)
  | [] => none
  | '"' :: cs => some (['"'], cs)
  | '\\' :: c :: cs => do
    let (body, cs) ← readQuoted cs
    some ('\\' :: c :: body, cs)
  | c :: cs => do
    let (body, cs) ← readQuoted cs
    some (c :: body, cs)

def readRaw (cs : List Char) : Option (List Char × List Char) := do
  let rest ← expect Layout.rawQuote (cs.dropWhile (· != Layout.rawQuote))
  some (cs.takeWhile (· != Layout.rawQuote) ++ [Layout.rawQuote], rest)

/-- The tag of a field, if it has one. -/
def readTag : Reader (Option String)
  | ' ' :: c :: cs =>
    if c = '"' then do
      let (body, cs) ← readQuoted cs
      some (some (String.ofList (c :: body)), cs)
    else if c = Layout.rawQuote then do
      let (body, cs) ← readRaw cs
      some (some (String.ofList (c :: body)), cs)
    else some (none, ' ' :: c :: cs)
  | cs => some (none, cs)

/-! ## Parts of types -/

section Parts

variable (type : Reader Ty) (fuel : Nat)

/-- Type arguments, if there are any. -/
def readArgs : Reader (List Ty)
  | '[' :: cs => do
    let (args, cs) ← readEach type ',' fuel cs
    let cs ← expect ']' cs
    some (args, cs)
  | cs => some ([], cs)

/-- A parameter, and whether it is a variadic one. -/
def readParam : Reader (Bool × Ty)
  | '.' :: '.' :: '.' :: cs => do
    let (elem, cs) ← type cs
    some ((true, .slice elem), cs)
  | cs => do
    let (ty, cs) ← type cs
    some ((false, ty), cs)

def readParams : Reader (List (Bool × Ty))
  | '(' :: ')' :: cs => some ([], cs)
  | '(' :: cs => do
    let (params, cs) ← readEach (readParam type) ',' fuel cs
    let cs ← expect ')' cs
    some (params, cs)
  | _ => none

/-- Results in parentheses, a single result, or none. -/
def readResults : Reader (List Ty)
  | ' ' :: c :: cs =>
    if c = '(' then do
      let (results, cs) ← readEach type ',' fuel cs
      let cs ← expect ')' cs
      some (results, cs)
    else if startsType c then do
      let (result, cs) ← type (c :: cs)
      some ([result], cs)
    else some ([], ' ' :: c :: cs)
  | cs => some ([], cs)

def readSignature : Reader (Signature Ty) := fun cs => do
  let (params, cs) ← readParams type fuel cs
  let (results, cs) ← readResults type fuel cs
  some (⟨params.map (·.2), results, params.any (·.1)⟩, cs)

/-- Members between braces. -/
def readMembers {α : Type} (member : Reader α) : Reader (List α)
  | '{' :: '}' :: cs => some ([], cs)
  | '{' :: ' ' :: cs => do
    let (members, cs) ← readEach member ';' fuel cs
    let cs ← expect ' ' cs
    let cs ← expect '}' cs
    some (members, cs)
  | _ => none

/-- The name of a field that is not embedded. -/
def readFieldName (cs : List Char) : Option (String × List Char) :=
  match readWord cs with
  | (word, ' ' :: c :: cs) =>
    if !typeKeywords.contains word && startsType c then some (word, c :: cs) else none
  | _ => none

def readField : Reader (Field Ty) := fun cs =>
  match readFieldName cs with
  | some (name, cs) => do
    let (ty, cs) ← type cs
    let (tag, cs) ← readTag cs
    some (⟨name, ty, false, tag, ""⟩, cs)
  | none => do
    let (ty, cs) ← type cs
    let (tag, cs) ← readTag cs
    some (⟨"", ty, true, tag, ""⟩, cs)

/-- The name of a method of an interface. -/
def readMethodName (cs : List Char) : Option (String × List Char) :=
  match readWord cs with
  | (word, '(' :: cs) => if !typeKeywords.contains word then some (word, '(' :: cs) else none
  | _ => none

/-- A method or an embedded type. -/
def readMember : Reader (MethodSpec Ty ⊕ Ty) := fun cs =>
  match readMethodName cs with
  | some (name, cs) => do
    let (signature, cs) ← readSignature type fuel cs
    some (.inl ⟨name, signature⟩, cs)
  | none => do
    let (ty, cs) ← type cs
    some (.inr ty, cs)

/-- What follows the first word of a channel type. -/
def readChannel : Reader Ty
  | '<' :: '-' :: ' ' :: cs => do
    let (elem, cs) ← type cs
    some (.channel .send elem, cs)
  | ' ' :: '(' :: cs => do
    let (elem, cs) ← type cs
    let cs ← expect ')' cs
    some (.channel .both elem, cs)
  | ' ' :: cs => do
    let (elem, cs) ← type cs
    some (.channel .both elem, cs)
  | _ => none

def readMap : Reader Ty := fun cs => do
  let cs ← expect '[' cs
  let (key, cs) ← type cs
  let cs ← expect ']' cs
  let (value, cs) ← type cs
  some (.map key value, cs)

/-- An array or a slice. -/
def readArray : Reader Ty
  | ']' :: cs => do
    let (elem, cs) ← type cs
    some (.slice elem, cs)
  | cs => do
    let (length, cs) := readWord cs
    let cs ← expect ']' cs
    let (elem, cs) ← type cs
    some (.array length elem, cs)

end Parts

namespace Lexicon

variable (L : Lexicon)

/-- A name of another package, behind its qualifier. -/
def readForeign (type : Reader Ty) (fuel : Nat) (qualifier : String) : Reader Ty := fun cs => do
  let path ← L.owner qualifier
  let (name, cs) := readWord cs
  if path = "unsafe" ∧ name = "Pointer" then some (.basic .unsafePointer, cs)
  else
    let (args, cs) ← readArgs type fuel cs
    some (.named ⟨some ⟨path, ""⟩, name, args⟩, cs)

/-- A name without a qualifier: predeclared, a type parameter, or of the package itself. -/
def readBare (type : Reader Ty) (fuel : Nat) (name : String) : Reader Ty := fun cs =>
  match BasicKind.ofName? name with
  | some kind => some (.basic kind, cs)
  | none =>
    if name ∈ L.params then some (.typeParam name, cs)
    else if L.host = "unsafe" ∧ name = "Pointer" then some (.basic .unsafePointer, cs)
    else do
      let (args, cs) ← readArgs type fuel cs
      some (.named ⟨if name = "error" then none else some ⟨L.host, ""⟩, name, args⟩, cs)

/-- A type that starts with a word without a dot behind it. -/
def readUnqualified (type : Reader Ty) (fuel : Nat) (word : String) : Reader Ty := fun cs =>
  if word = "map" then readMap type cs
  else if word = "chan" then readChannel type cs
  else if word = "func" then do
    let (signature, cs) ← readSignature type fuel cs
    some (.function signature, cs)
  else if word = "struct" then do
    let (fields, cs) ← readMembers fuel (readField type) cs
    some (.struct fields, cs)
  else if word = "interface" then do
    let (members, cs) ← readMembers fuel (readMember type fuel) cs
    some (.interface (members.filterMap Sum.getLeft?) (members.filterMap Sum.getRight?), cs)
  else L.readBare type fuel word cs

/-- A type that starts with a word. -/
def readNamed (type : Reader Ty) (fuel : Nat) : Reader Ty := fun cs =>
  match readWord cs with
  | (word, '.' :: cs) => L.readForeign type fuel word cs
  | (word, cs) => L.readUnqualified type fuel word cs

/-- The type at the beginning of a text, with parts on less than `fuel` levels. -/
def readType : Nat → Reader Ty
  | 0, _ => none
  | fuel + 1, '*' :: cs => do
    let (elem, cs) ← readType fuel cs
    some (.pointer elem, cs)
  | fuel + 1, '[' :: cs => readArray (readType fuel) cs
  | fuel + 1, '<' :: '-' :: 'c' :: 'h' :: 'a' :: 'n' :: ' ' :: cs => do
    let (elem, cs) ← readType fuel cs
    some (.channel .receive elem, cs)
  | fuel + 1, cs => L.readNamed (readType fuel) fuel cs

end Lexicon
end ResetMethods

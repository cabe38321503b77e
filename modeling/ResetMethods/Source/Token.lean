import ResetMethods.Source.Basic
import ResetMethods.Source.Number
import ResetMethods.Text.Brace
import ResetMethods.Text.Letters

/-!
# ResetMethods.Source.Token

Source text as a list of tokens.

* `Token` : a token with the comments before it and where it stands.
* `tokenize` : the tokens of a text, the end of the text last.
* `docAbove` : the comments that document what starts with a token.

A token knows whether a line break stands before it, because a line break may end a declaration or
a statement. A line break inside a block comment does not count.
-/

namespace ResetMethods

open Text (closeBrace isBlank isIdentifierStart isIdentifierPart openBrace trimEnd)

/-- A comment with the lines on which it starts and ends, counted from 0. Its text has no trailing
white space. -/
structure Comment where
  text : String
  row : Nat
  endRow : Nat
  deriving DecidableEq, Repr, Inhabited

inductive TokenKind where
  /-- An identifier or a keyword. -/
  | word (name : String)
  /-- A number or a rune literal. -/
  | literal
  /-- A string literal with its quotes. -/
  | string (text : String)
  /-- An operator or a delimiter. -/
  | symbol (text : String)
  /-- A character that starts no token. -/
  | unknown
  /-- The end of the text. -/
  | eof
  deriving DecidableEq, Repr, Inhabited

/-- A token. `rest` is the text from its first character on and `start` the number of characters
before it; `previousStop` and `previousRow` tell where the token before it ends. -/
structure Token where
  kind : TokenKind
  newline : Bool
  comments : List Comment
  row : Nat
  start : Nat
  rest : List Char
  previousStop : Nat
  previousRow : Nat
  deriving Repr, Inhabited

/-- Operators and delimiters, longer ones before those they start with. -/
def symbols : List String :=
  ["<<=", ">>=", "&^=", "...", "&&", "||", "<-", "++", "--", "==", "!=", "<=", ">=", ":=", "+=",
    "-=", "*=", "/=", "%=", "&=", "|=", "^=", "<<", ">>", "&^", "+", "-", "*", "/", "%", "&", "|",
    "^", "<", ">", "=", "!", "(", ")", "[", "]", openBrace, closeBrace, ",", ";", ".", ":", "~"]

def isSpace (c : Char) : Bool := c == ' ' || ('\t' ≤ c && c ≤ '\r')

def runLength (p : Char → Bool) (cs : List Char) : Nat := (cs.takeWhile p).length

/-- The length of a block comment, up to its first end mark, behind the `n` characters read. -/
def blockCommentLength (n : Nat) : List Char → Option Nat
  | [] => none
  | '*' :: '/' :: _ => some (n + 2)
  | _ :: cs => blockCommentLength (n + 1) cs

/-- The length of the comment that a text starts with. -/
def commentLength : List Char → Option Nat
  | '/' :: '/' :: cs => some (2 + runLength (· ≠ '\n') cs)
  | '/' :: '*' :: cs => blockCommentLength 2 cs
  | _ => none

/-- The length of the escape behind a backslash. A digit may be followed by one or two more, and
`x`, `u` and `U` ask for hexadecimal digits. -/
def escapeLength : List Char → Option Nat
  | [] => none
  | 'x' :: cs => if 2 ≤ runLength Number.isHexDigit cs then some 3 else none
  | 'u' :: cs => if 4 ≤ runLength Number.isHexDigit cs then some 5 else none
  | 'U' :: cs => if 8 ≤ runLength Number.isHexDigit cs then some 9 else none
  | _ => some 1

/-- The length of a string in double quotes, behind the `n` characters read. -/
def stringLength (n : Nat) : Nat → List Char → Option Nat
  | 0, _ => none
  | _ + 1, [] => none
  | fuel + 1, c :: cs =>
    if c = '"' then some (n + 1)
    else if c = '\n' then none
    else if c = '\\' then
      match escapeLength cs with
      | some k => stringLength (n + 1 + k) fuel (cs.drop k)
      | none => none
    else stringLength (n + 1) fuel cs

/-- The length of a raw string, behind the `n` characters read. -/
def rawStringLength (n : Nat) : List Char → Option Nat
  | [] => none
  | c :: cs => if c = '\x60' then some (n + 1) else rawStringLength (n + 1) cs

/-- The length of the escape behind a backslash in a rune literal. -/
def runeEscapeLength (cs : List Char) : Option Nat :=
  match cs with
  | 'x' :: ds => if 2 ≤ runLength Number.isHexDigit ds then some 3 else none
  | 'u' :: ds => if 4 ≤ runLength Number.isHexDigit ds then some 5 else none
  | 'U' :: ds => if 8 ≤ runLength Number.isHexDigit ds then some 9 else none
  | c :: _ =>
    if 3 ≤ runLength Number.isOctalDigit cs then some 3
    else if "abfnrtv\\'\"".toList.contains c then some 1
    else none
  | [] => none

/-- The length of a rune literal behind its opening quote. -/
def runeLength : List Char → Option Nat
  | '\\' :: cs =>
    match runeEscapeLength cs with
    | some k => if (cs.drop k).head? = some '\'' then some (k + 2) else none
    | none => none
  | c :: '\'' :: _ => if c = '\'' then none else some 2
  | _ => none

/-- The token that a text starts with, and its length. A literal that is not closed starts no
token. -/
def lexeme (cs : List Char) : TokenKind × Nat :=
  match cs with
  | [] => (.eof, 0)
  | c :: tail =>
    if isIdentifierStart c then
      let n := runLength isIdentifierPart tail + 1
      (.word (String.ofList (cs.take n)), n)
    else
      match numberLength cs with
      | n + 1 => (.literal, n + 1)
      | 0 =>
        let quoted :=
          if c = '"' then stringLength 1 cs.length tail
          else if c = '\x60' then rawStringLength 1 tail
          else none
        match quoted with
        | some n => (.string (String.ofList (cs.take n)), n)
        | none =>
          match if c = '\'' then runeLength tail else none with
          | some n => (.literal, n + 1)
          | none =>
            match symbols.find? fun s => s.toList.isPrefixOf cs with
            | some s => (.symbol s, s.length)
            | none => (.unknown, 1)

/-- How many line feeds the first `n` characters hold. -/
def lineFeeds (n : Nat) (cs : List Char) : Nat := (cs.take n).count '\n'

/-- Where reading stands between two tokens: the number of characters read, the row, what was seen
since the last token, and where that token ended. -/
structure Cursor where
  start : Nat
  row : Nat
  newline : Bool
  comments : List Comment
  previousStop : Nat
  previousRow : Nat
  deriving Repr, Inhabited

/-- The tokens of a text from a cursor on. Every step reads at least one character, so `fuel` may
be the length of the text. -/
def tokensFrom : Nat → Cursor → List Char → List Token
  | fuel, cursor, cs =>
    let token (kind : TokenKind) : Token :=
      { cursor with kind, rest := cs }
    match fuel, cs with
    | 0, _ => [token .eof]
    | _, [] => [token .eof]
    | fuel + 1, c :: tail =>
      if isSpace c then
        let newRow := c == '\n'
        tokensFrom fuel
          { cursor with
            start := cursor.start + 1
            row := if newRow then cursor.row + 1 else cursor.row
            newline := cursor.newline || newRow }
          tail
      else
        match commentLength cs with
        | some n =>
          let endRow := cursor.row + lineFeeds n cs
          let text := String.ofList (trimEnd (cs.take n))
          tokensFrom fuel
            { cursor with
              start := cursor.start + n
              row := endRow
              comments := cursor.comments ++ [⟨text, cursor.row, endRow⟩] }
            (cs.drop n)
        | none =>
          let (kind, n) := lexeme cs
          let stop := cursor.start + n
          let endRow := cursor.row + lineFeeds n cs
          token kind :: tokensFrom fuel ⟨stop, endRow, false, [], stop, endRow⟩ (cs.drop n)

/-- The tokens of a text. A byte order mark at its start does not count as text. -/
def tokenize (text : List Char) : List Token :=
  let text := if text.head? = some '\ufeff' then text.tail else text
  tokensFrom text.length ⟨0, 0, false, [], 0, 0⟩ text

/-- The longest run of comments that ends right above row `row`, from the comments before it,
the nearest first. Between two comments of the run there is no blank line and no shared line.
`trailing` is the row on which the element before the comments ends, if there is one: a comment
that directly follows on that row belongs to the element. -/
def docRun (trailing : Option Nat) (row : Nat) : List Comment → List Comment
  | [] => []
  | c :: earlier =>
    if c.endRow + 1 ≠ row then []
    else if earlier.isEmpty && trailing == some c.row then []
    else c :: docRun trailing c.row earlier

/-- The comments that document what starts with a token. -/
def docAbove (trailing : Option Nat) (t : Token) : Option CommentGroup :=
  match docRun trailing t.row t.comments.reverse with
  | [] => none
  | run => some ⟨run.reverse.map (·.text)⟩

end ResetMethods

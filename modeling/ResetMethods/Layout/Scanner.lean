import ResetMethods.Failure

/-!
# ResetMethods.Layout.Scanner

Following delimiters and multi-line tokens through source text, line by line.

* `Scanner` : what is open between two lines.
* `scanLine` : the scanner after a line, or the first offence on it.
* `Scanner.close` : the offence of a text that ends here, if there is one.

Within a line the scanner is in one of four states, and each has a function of its own: ordinary
code, a raw string, a block comment, and a quoted literal, which has to end on its line.
-/

namespace ResetMethods
namespace Layout

inductive Mode where
  | code
  | rawString
  | blockComment
  deriving DecidableEq, Repr, Inhabited

/-- What is open: a token that runs over line ends, and the delimiters around it, the innermost
first. -/
structure Scanner where
  mode : Mode
  stack : List Char
  deriving DecidableEq, Repr, Inhabited

def Scanner.initial : Scanner := ⟨.code, []⟩

def rawQuote : Char := '\x60'

def isOpener (c : Char) : Bool := c == '{' || c == '(' || c == '['

/-- The opening delimiter that a closing one belongs to. -/
def openerOf? : Char → Option Char
  | '}' => some '{'
  | ')' => some '('
  | ']' => some '['
  | _ => none

mutual

/-- The rest of a line in ordinary code. A line comment ends the line. -/
def scanCode (line : Nat) (stack : List Char) : List Char → Except FormatError Scanner
  | [] => .ok ⟨.code, stack⟩
  | '/' :: '/' :: _ => .ok ⟨.code, stack⟩
  | '/' :: '*' :: cs => scanComment line stack cs
  | c :: cs =>
    if c = rawQuote then scanRaw line stack cs
    else if c = '"' ∨ c = '\'' then scanQuoted line stack c cs
    else if isOpener c then scanCode line (c :: stack) cs
    else
      match openerOf? c with
      | none => scanCode line stack cs
      | some opener =>
        match stack with
        | [] => .error (.unbalanced line c)
        | top :: below =>
          if top = opener then scanCode line below cs else .error (.unbalanced line c)

def scanRaw (line : Nat) (stack : List Char) : List Char → Except FormatError Scanner
  | [] => .ok ⟨.rawString, stack⟩
  | c :: cs => if c = rawQuote then scanCode line stack cs else scanRaw line stack cs

def scanComment (line : Nat) (stack : List Char) : List Char → Except FormatError Scanner
  | [] => .ok ⟨.blockComment, stack⟩
  | '*' :: '/' :: cs => scanCode line stack cs
  | _ :: cs => scanComment line stack cs

/-- The rest of a line in a literal in quotes. A backslash takes the next character with it. -/
def scanQuoted (line : Nat) (stack : List Char) (quote : Char) :
    List Char → Except FormatError Scanner
  | [] => .error (.unclosed quote)
  | '\\' :: [] => .error (.unclosed quote)
  | '\\' :: _ :: cs => scanQuoted line stack quote cs
  | c :: cs => if c = quote then scanCode line stack cs else scanQuoted line stack quote cs

end

def scanLine (line : Nat) (s : Scanner) (cs : List Char) : Except FormatError Scanner :=
  match s.mode with
  | .code => scanCode line s.stack cs
  | .rawString => scanRaw line s.stack cs
  | .blockComment => scanComment line s.stack cs

/-- Whether a text may end here: the innermost open token or delimiter is the offence. -/
def Scanner.close (s : Scanner) : Except FormatError Unit :=
  match s.mode, s.stack with
  | .rawString, _ => .error (.unclosed rawQuote)
  | .blockComment, _ => .error (.unclosed '*')
  | .code, [] => .ok ()
  | .code, top :: _ => .error (.unclosed top)

end Layout
end ResetMethods

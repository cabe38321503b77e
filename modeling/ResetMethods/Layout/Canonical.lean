import ResetMethods.Layout.Scanner
import ResetMethods.Text.Lines

/-!
# ResetMethods.Layout.Canonical

The canonical layout of source text.

* `layoutFrom` : the output lines for the remaining input lines.
* `canonical` : the layout of a text.
* `canonicalBytes` : the same on bytes.

A line of code is indented by one tab for each delimiter open at its start, less the closers it
starts with. Runs of blank lines become one, which goes away at the start and at the end of the
text, behind a line that ends in an opening brace or parenthesis, and before a closer. Lines inside
a raw string stay as they are; lines inside a block comment lose trailing white space.
-/

namespace ResetMethods
namespace Layout

open Text (lines trim trimEnd isBlank)

def isCloser (c : Char) : Bool := c == '}' || c == ')' || c == ']'

def leadingClosers (text : List Char) : Nat := (text.takeWhile isCloser).length

/-- Whether a line ends in an opening brace or parenthesis, so that no blank line follows it. -/
def opensBlock (line : List Char) : Bool :=
  line.getLast? == some '{' || line.getLast? == some '('

def indented (s : Scanner) (text : List Char) : List Char :=
  List.replicate (s.stack.length - leadingClosers text) '\t' ++ text

/-- The output for the input lines from line number `n` on: `s` is what is open before them,
`previous` the last output line, and `pending` tells that blank lines came since. -/
def layoutFrom (n : Nat) (s : Scanner) (previous : Option (List Char)) (pending : Bool) :
    List (List Char) → Except FormatError (List (List Char))
  | [] => do
    s.close
    return []
  | raw :: rest =>
    match s.mode with
    | .code =>
      let text := trim raw
      if text.isEmpty then layoutFrom (n + 1) s previous previous.isSome rest
      else do
        let line := indented s text
        let s' ← scanLine n s text
        let below ← layoutFrom (n + 1) s' (some line) false rest
        let blank := pending && !previous.any opensBlock && leadingClosers text == 0
        return if blank then [] :: line :: below else line :: below
    | mode => do
      let line := if mode = .rawString then raw else trimEnd raw
      let s' ← scanLine n s raw
      let below ← layoutFrom (n + 1) s' (some line) pending rest
      return line :: below

def unlines (ls : List (List Char)) : List Char := ls.flatMap (· ++ ['\n'])

/-- The canonical layout of a text, or its first offence. -/
def canonical (text : List Char) : Except FormatError (List Char) :=
  unlines <$> layoutFrom 1 .initial none false (lines text)

def canonicalBytes (source : ByteArray) : Except FormatError ByteArray :=
  match String.fromUTF8? source with
  | none => .error .invalidText
  | some text => (fun cs => (String.ofList cs).toUTF8) <$> canonical text.toList

end Layout
end ResetMethods

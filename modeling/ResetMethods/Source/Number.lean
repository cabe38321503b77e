import ResetMethods.Text.Letters

/-!
# ResetMethods.Source.Number

Number literals.

* `numberLength` : the length of the longest number literal that a text starts with, 0 if none.

Every function here maps a text to the lengths of literals of one form at its start; a form that
does not match gives no length.
-/

namespace ResetMethods
namespace Number

open Text (isAsciiDigit)

abbrev Form := List Char → List Nat

def one (p : Char → Bool) : Form
  | c :: _ => if p c then [1] else []
  | [] => []

def nothing : Form := fun _ => [0]

def andThen (f g : Form) : Form := fun cs =>
  (f cs).flatMap fun n => (g (cs.drop n)).map (n + ·)

def orElse (f g : Form) : Form := fun cs => f cs ++ g cs

def maybe (f : Form) : Form := orElse f nothing

/-- Whether the character is `c`, in either case. -/
def isEither (lower upper : Char) (c : Char) : Bool := c == lower || c == upper

def isHexDigit (c : Char) : Bool :=
  isAsciiDigit c || ('a' ≤ c && c ≤ 'f') || ('A' ≤ c && c ≤ 'F')

def isOctalDigit (c : Char) : Bool := '0' ≤ c && c ≤ '7'

def isBinaryDigit (c : Char) : Bool := c == '0' || c == '1'

/-- The length of the longest run of digits with single underscores between them. -/
def digitRun (p : Char → Bool) : List Char → Nat
  | [] => 0
  | [c] => if p c then 1 else 0
  | c :: '_' :: cs =>
    if p c then
      match digitRun p cs with
      | 0 => 1
      | n => n + 2
    else 0
  | c :: d :: cs => if p c then digitRun p (d :: cs) + 1 else 0

def digits (p : Char → Bool) : Form := fun cs =>
  match digitRun p cs with
  | 0 => []
  | n => [n]

def maybeUnderscore : Form := maybe (one (· == '_'))

def based (lower upper : Char) : Form := andThen (one (· == '0')) (one (isEither lower upper))

def decimals : Form := digits isAsciiDigit

def integer : Form :=
  orElse
    (orElse (andThen (andThen (based 'b' 'B') maybeUnderscore) (digits isBinaryDigit))
      (andThen (andThen (based 'x' 'X') maybeUnderscore) (digits isHexDigit)))
    (orElse
      (andThen (andThen (one (· == '0')) (maybe (one (isEither 'o' 'O'))))
        (andThen maybeUnderscore (digits isOctalDigit)))
      (orElse (one (· == '0'))
        (andThen (one fun c => '1' ≤ c && c ≤ '9') (maybe (andThen maybeUnderscore decimals)))))

def exponent (lower upper : Char) : Form :=
  andThen (andThen (one (isEither lower upper)) (maybe (one fun c => c == '+' || c == '-')))
    decimals

def decimalFloat : Form :=
  orElse
    (andThen (andThen decimals (one (· == '.')))
      (andThen (maybe decimals) (maybe (exponent 'e' 'E'))))
    (orElse (andThen decimals (exponent 'e' 'E'))
      (andThen (andThen (one (· == '.')) decimals) (maybe (exponent 'e' 'E'))))

def hexFloat : Form :=
  andThen
    (andThen (based 'x' 'X')
      (orElse
        (andThen (andThen maybeUnderscore (digits isHexDigit))
          (maybe (andThen (one (· == '.')) (maybe (digits isHexDigit)))))
        (andThen (one (· == '.')) (digits isHexDigit))))
    (exponent 'p' 'P')

/-- A number literal: integer, floating-point or imaginary. -/
def literal : Form :=
  let real := orElse integer (orElse decimalFloat hexFloat)
  orElse real (andThen (orElse decimals real) (one (· == 'i')))

end Number

/-- The length of the longest number literal at the start of a text. -/
def numberLength (cs : List Char) : Nat := (Number.literal cs).foldl max 0

end ResetMethods

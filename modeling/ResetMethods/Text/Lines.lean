import ResetMethods.Text.Blank

/-!
# ResetMethods.Text.Lines

Cutting a text into lines, pieces and words, and joining pieces again.

* `lines` : a line ends at a line feed or at a carriage return with a line feed; the end of the
  text ends a line only when something stands on it.
* `pieces` : what stands between the occurrences of a separator, so one more piece than separators.
* `words` : maximal runs without white space.
* `join` : the pieces with a separator between neighbours.
-/

namespace ResetMethods
namespace Text

/-- The lines of a text, without their line breaks. -/
def lines : List Char → List (List Char)
  | [] => []
  | c :: cs =>
    if c = '\n' then [] :: lines cs
    else if c = '\r' ∧ cs.head? = some '\n' then lines cs
    else
      match lines cs, cs.head? with
      | l :: ls, some _ => (c :: l) :: ls
      | ls, _ => [c] :: ls

/-- What stands between the occurrences of `sep`. -/
def pieces (sep : Char) : List Char → List (List Char)
  | [] => [[]]
  | c :: cs =>
    if c = sep then [] :: pieces sep cs
    else
      match pieces sep cs with
      | p :: ps => (c :: p) :: ps
      | [] => [[c]]

def words : List Char → List (List Char)
  | [] => []
  | c :: cs =>
    if isBlank c then words cs
    else
      match cs.head?, words cs with
      | some d, w :: ws => if isBlank d then [c] :: w :: ws else (c :: w) :: ws
      | _, ws => [c] :: ws

/-- The pieces in order, with `sep` between neighbours. -/
def join (sep : String) : List String → String
  | [] => ""
  | [s] => s
  | s :: t :: rest => s ++ sep ++ join sep (t :: rest)

/-- What follows `start` in the list, if the list starts with it. -/
def after? {α : Type} [BEq α] (start cs : List α) : Option (List α) :=
  if start.isPrefixOf cs then some (cs.drop start.length) else none

/-- The text before the first occurrence of `mark`, or all of it. -/
def before (mark : List Char) : List Char → List Char
  | [] => []
  | c :: cs => if mark.isPrefixOf (c :: cs) then [] else c :: before mark cs

/-- Without the characters of the class `drop` at either end. -/
def stripEnds (drop : Char → Bool) (cs : List Char) : List Char :=
  ((cs.dropWhile drop).reverse.dropWhile drop).reverse

theorem lines_ne_nil {cs : List Char} (h : cs ≠ []) : lines cs ≠ [] := by
  induction cs with
  | nil => exact absurd rfl h
  | cons c cs ih =>
    rw [lines]
    split
    · simp
    · split
      · next _ hr =>
        apply ih
        intro hn
        simp [hn] at hr
      · split <;> simp

theorem pieces_ne_nil (sep : Char) (cs : List Char) : pieces sep cs ≠ [] := by
  induction cs with
  | nil => simp [pieces]
  | cons c cs ih =>
    rw [pieces]
    split
    · simp
    · split <;> simp

end Text
end ResetMethods

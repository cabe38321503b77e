import ResetMethods.Proofs.Layout.Lines
import ResetMethods.Text.Brace

/-!
# ResetMethods.Proofs.Layout.Shape

The shape of a text that is laid out.

* `Placed`: how a line of code stands between its neighbours. What is visible on it is indented by
  one tab for each open delimiter, less the closers that it starts with; a blank line is never the
  first or the last, has no blank neighbour, and stands neither behind an opening brace or
  parenthesis nor before a closer.
* `Orderly`: lines among which all lines of code are placed so.
* `Lays.orderly`: what the layout puts for lines is orderly.
* `IsCanonical`, `canonicalBytes_isCanonical`: so is the layout of a text, which ends in one line
  feed unless it is empty.

The lines of a laid out text are those between its line feeds. A carriage return that a raw string
has before one belongs to the line.
-/

namespace ResetMethods
namespace Layout

open Text (closeBrace isBlank lines openBrace trim trimStart trimEnd)

/-- How a line of code stands between the lines above and below it, with `s` open where it
begins. -/
structure Placed (s : Scanner) (above : Option (List Char)) (l : List Char)
    (below : Option (List Char)) : Prop where
  indent : ¬ IsBlankLine l → ∃ k text, l = List.replicate k '\t' ++ text ∧ trim text = text ∧
    s.stack.length = k + leadingClosers text
  empty : IsBlankLine l → l = []
  behind : IsBlankLine l → ∃ p, above = some p ∧ p.getLast? ≠ some '{' ∧ p.getLast? ≠ some '('
  before : IsBlankLine l → ∃ m, below = some m ∧ ¬ IsBlankLine m ∧ leadingClosers (trim m) = 0

/-- Lines that the scanner gets through, all lines of code among them placed. -/
inductive Orderly : Scanner → Option (List Char) → List (List Char) → Prop where
  | nil (s : Scanner) (above : Option (List Char)) : Orderly s above []
  | cons {s s' : Scanner} {above : Option (List Char)} {l : List Char} {rest : List (List Char)} :
      s.after? l = some s' → (s.mode = .code → Placed s above l rest.head?) →
      Orderly s' (some l) rest → Orderly s above (l :: rest)

variable {s s' : Scanner} {l raw text : List Char} {ls out before after : List (List Char)}
  {previous above below : Option (List Char)} {pending : Bool}

/-! ## A line of code -/

/-- A line that does not offend closes no more at its start than is open. -/
theorem leadingClosers_le {n : Nat} {stack : List Char} (h : scanCode n stack text = .ok s') :
    leadingClosers text ≤ stack.length := by
  induction text generalizing stack with
  | nil => simp [leadingClosers]
  | cons c cs ih =>
    by_cases hc : isCloser c = true
    · obtain ⟨opener, ho⟩ : ∃ opener, openerOf? c = some opener := by
        have hchar : c = '}' ∨ c = ')' ∨ c = ']' := by simpa [isCloser, or_assoc] using hc
        obtain rfl | rfl | rfl := hchar <;> exact ⟨_, rfl⟩
      by_cases hs : stack.head? = some opener
      · obtain ⟨under, rfl⟩ := List.head?_eq_some_iff.1 hs
        rw [scanCode_closer ho] at h
        have hrest := ih h
        simp only [leadingClosers, List.takeWhile_cons, hc, if_true, List.length_cons] at hrest ⊢
        omega
      · rw [scanCode_closer_error ho hs] at h
        cases h
    · simp [leadingClosers, hc]

/-- A line of code is placed where it is put. -/
theorem placed_indented (hs : s.mode = .code) (hraw : ¬ IsBlankLine raw)
    (ha : s.after? raw = some s') (above below : Option (List Char)) :
    Placed s above (indented s (trim raw)) below := by
  have hvisible := not_isBlankLine_indented hraw s
  refine ⟨fun _ => ?_, fun h => absurd h hvisible, fun h => absurd h hvisible,
    fun h => absurd h hvisible⟩
  refine ⟨s.stack.length - leadingClosers (trim raw), trim raw, rfl, trim_trim hraw, ?_⟩
  have hscan : scanLine 0 s (trim raw) = .ok s' := by
    rw [scanLine_eq_ok_iff, Scanner.after?_trim hs]
    exact ha
  simp only [scanLine, hs] at hscan
  have hle := leadingClosers_le hscan
  omega

/-- So is the blank line that is kept before it. -/
theorem placed_gap (hraw : ¬ IsBlankLine raw) (hp : pending = true → previous.isSome = true)
    (hgap : (pending && !previous.any opensBlock && leadingClosers (trim raw) == 0) = true) :
    Placed s previous [] (some (indented s (trim raw))) := by
  simp only [Bool.and_eq_true, Bool.not_eq_true', beq_iff_eq] at hgap
  obtain ⟨⟨hpending, hopens⟩, hclosers⟩ := hgap
  have hnil : IsBlankLine [] := by simp [IsBlankLine]
  refine ⟨fun h => absurd hnil h, fun _ => rfl, fun _ => ?_, fun _ => ?_⟩
  · obtain ⟨p, rfl⟩ := Option.isSome_iff_exists.1 (hp hpending)
    refine ⟨p, rfl, ?_⟩
    simpa [opensBlock] using hopens
  · refine ⟨_, rfl, not_isBlankLine_indented hraw s, ?_⟩
    rw [trim_indented_eq hraw]
    exact hclosers

/-! ## Lines -/

/-- What the layout puts for lines is orderly. -/
theorem Lays.orderly (h : Lays s previous pending ls out)
    (hp : pending = true → previous.isSome = true) : Orderly s previous out := by
  induction h with
  | done => exact .nil _ _
  | blank _ _ _ ih => exact ih id
  | @code s s' previous pending raw rest below hs hraw ha _ ih =>
    have hline : s.after? (indented s (trim raw)) = some s' := by
      rw [Scanner.after?_indented_trim hs, ha]
    have hbelow : ∀ above, Orderly s above (indented s (trim raw) :: below) := by
      intro above
      exact .cons hline (fun _ => placed_indented hs hraw ha above _) (ih (by simp))
    unfold gap
    split
    · rename_i hgap
      exact .cons (Scanner.after?_nil s) (fun _ => placed_gap hraw hp hgap) (hbelow _)
    · exact hbelow previous
  | rawString hs ha _ ih =>
    exact .cons ha (fun hcode => by simp [hs] at hcode) (ih (by simp))
  | blockComment hs ha _ ih =>
    refine .cons ?_ (fun hcode => by simp [hs] at hcode) (ih (by simp))
    rw [Scanner.after?_trimEnd, ha]

/-- Any line among orderly ones, with its neighbours. -/
theorem Orderly.exists_through (h : Orderly s above (before ++ l :: after)) :
    ∃ t, s.through? before = some t ∧
      (t.mode = .code → Placed t (before.getLast? <|> above) l after.head?) := by
  induction before generalizing s above with
  | nil =>
    cases h with
    | cons ha hl _ => exact ⟨s, rfl, hl⟩
  | cons b before ih =>
    cases h with
    | cons ha _ hrest =>
      obtain ⟨t, ht, hl⟩ := ih hrest
      refine ⟨t, ?_, ?_⟩
      · rw [Scanner.through?_cons, ha]
        exact ht
      · have habove : ((b :: before).getLast? <|> above) = (before.getLast? <|> some b) := by
          cases hb : before.getLast? with
          | none => simp [List.getLast?_cons, hb]
          | some p => simp [List.getLast?_cons, hb]
        rwa [habove]

/-! ## The end of the text -/

theorem Lays.mode_of_nil (h : Lays s previous pending ls out) (ho : out = []) :
    s.mode = .code := by
  cases h with
  | done hc => rw [close_eq_ok_iff.1 hc]; rfl
  | blank hs _ _ => exact hs
  | code hs _ _ _ => exact hs
  | rawString _ _ _ => cases ho
  | blockComment _ _ _ => cases ho

/-- Nothing on a line leaves what is open as it is. -/
theorem ne_nil_of_after? (h : s.after? l = some s') (hm : s.mode ≠ s'.mode) : l ≠ [] := by
  rintro rfl
  rw [Scanner.after?_nil, Option.some.injEq] at h
  exact hm (by rw [h])

theorem eq_or_of_getLast?_cons {last : List Char} (h : (l :: ls).getLast? = some last) :
    ls = [] ∧ last = l ∨ ls.getLast? = some last := by
  cases ls with
  | nil => exact .inl ⟨rfl, by simpa using h.symm⟩
  | cons m ls => exact .inr (by rwa [List.getLast?_cons_cons] at h)

theorem Lays.getLast_ne_nil (h : Lays s previous pending ls out) (hl : out.getLast? = some l) :
    l ≠ [] := by
  induction h with
  | done => cases hl
  | blank _ _ _ ih => exact ih hl
  | @code s _ _ _ raw _ below _ hraw _ _ ih =>
    rw [List.getLast?_append_of_ne_nil _ (List.cons_ne_nil _ below)] at hl
    obtain ⟨-, rfl⟩ | hl := eq_or_of_getLast?_cons hl
    · intro hnil
      refine not_isBlankLine_indented hraw s ?_
      simp [hnil, IsBlankLine]
    · exact ih hl
  | @rawString s s' _ _ raw rest below hs ha hbelow ih =>
    obtain ⟨hnil, rfl⟩ | hl := eq_or_of_getLast?_cons hl
    · exact ne_nil_of_after? ha (by rw [hs, hbelow.mode_of_nil hnil]; decide)
    · exact ih hl
  | @blockComment s s' _ _ raw rest below hs ha hbelow ih =>
    obtain ⟨hnil, rfl⟩ | hl := eq_or_of_getLast?_cons hl
    · rw [← Scanner.after?_trimEnd] at ha
      exact ne_nil_of_after? ha (by rw [hs, hbelow.mode_of_nil hnil]; decide)
    · exact ih hl

/-- The text is empty, or it ends in one line feed and no more. -/
def EndsOnce (text : List Char) : Prop :=
  text = [] ∨ ∃ front c, text = front ++ [c, '\n'] ∧ c ≠ '\n'

theorem endsOnce_unlines (hone : ∀ l ∈ ls, '\n' ∉ l)
    (hlast : ∀ l, ls.getLast? = some l → l ≠ []) : EndsOnce (unlines ls) := by
  obtain rfl | ⟨init, l, rfl⟩ := List.eq_nil_or_concat ls
  · exact .inl rfl
  · have hl : l ≠ [] := hlast l (by simp)
    obtain ⟨cs, c, rfl⟩ := (List.eq_nil_or_concat l).resolve_left hl
    have hc : '\n' ∉ cs ++ [c] := hone _ (by simp)
    refine .inr ⟨unlines init ++ cs, c, by simp [unlines], fun h => hc ?_⟩
    simp [h]

/-- The canonical layout of a text. The scanner gets to each of its lines, and the lines of code are
placed. -/
structure IsCanonical (text : List Char) : Prop where
  ends : EndsOnce text
  placed : ∃ ls, text = unlines ls ∧ (∀ l ∈ ls, '\n' ∉ l) ∧
    ∀ before l after, ls = before ++ l :: after →
      ∃ s, Scanner.initial.through? before = some s ∧
        (s.mode = .code → Placed s before.getLast? l after.head?)

/-- A text that is laid out is in canonical layout. -/
theorem canonicalBytes_isCanonical {text : String} {out : ByteArray}
    (h : canonicalBytes text.toUTF8 = .ok out) :
    ∃ laid : String, out = laid.toUTF8 ∧ IsCanonical laid.toList := by
  obtain ⟨ls, hlays, hone, rfl⟩ := exists_lays h
  refine ⟨String.ofList (unlines ls), rfl, ?_, ls, String.toList_ofList, hone, ?_⟩
  · rw [String.toList_ofList]
    exact endsOnce_unlines hone fun l hl => hlays.getLast_ne_nil hl
  · rintro before l after rfl
    have horderly := hlays.orderly (by simp)
    simpa using horderly.exists_through

def crowded : String :=
  "\n\nf(g([]int" ++ openBrace ++ "\n\n1, // one \n\n\n/* two \n\n  three */\n2,\n\n" ++
    closeBrace ++ ")) \n\n\n"

def spaced : String :=
  "f(g([]int" ++ openBrace ++
    "\n\t\t\t1, // one\n\n\t\t\t/* two\n\n  three */\n\t\t\t2,\n" ++ closeBrace ++ "))\n"

/-- Four runs of blank lines, of which one is kept, and a line that closes three delimiters. -/
theorem canonicalBytes_isCanonical_spaced :
    canonicalBytes crowded.toUTF8 = .ok spaced.toUTF8 ∧
      ∃ laid : String, spaced.toUTF8 = laid.toUTF8 ∧ IsCanonical laid.toList := by
  have h : canonicalBytes crowded.toUTF8 = .ok spaced.toUTF8 :=
    canonicalBytes_ok_of_canonical (by cbv)
  exact ⟨h, canonicalBytes_isCanonical h⟩

end Layout
end ResetMethods

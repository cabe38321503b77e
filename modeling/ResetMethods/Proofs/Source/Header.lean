import Mathlib
import ResetMethods.Proofs.Layout.Lines
import ResetMethods.Proofs.Source.Standing
import ResetMethods.Proofs.Text.Continued
import ResetMethods.Proofs.Text.Cutting
import ResetMethods.Source.Constraint

/-!
# ResetMethods.Proofs.Source.Header

What excludes a file from every build.

* `Token.before`: the text before a token.
* `any_headerLines`: a file is excluded by what stands above the row of a package clause, or by what
  the scan for a constraint still reads from that row on.
* `SourceFile.isExcluded_before_iff`: so the text before the package clause decides, if and only if
  it excludes the file or the scan finds nothing from the row of the clause on.
* `SourceFile.isExcluded_behind_tab`: it does not decide where a tab stands behind the keyword.

The scan looks for a line that starts with the word `package` and a space. A clause that is written
in another way does not stop it.
-/

namespace ResetMethods

open Text

/-- The text before a token, a byte order mark included. -/
def Token.before (text : List Char) (t : Token) : List Char :=
  text.take (t.start + if text.head? = some '\ufeff' then 1 else 0)

variable {text pre left line : List Char} {c : Char}

/-! ## Constraints -/

theorem asksToIgnore_iff : asksToIgnore line = true ↔
    ∃ terms, line = "//go:build ".toList ++ terms ∧ "ignore".toList ∈ words terms := by
  rw [asksToIgnore]
  constructor
  · intro h
    split at h
    · next terms hafter => exact ⟨terms, after?_eq_some hafter, by simpa using h⟩
    · cases h
  · rintro ⟨terms, rfl, hterms⟩
    rw [after?_append]
    simpa using hterms

/-- A line that asks is no package clause. -/
theorem not_clause_of_asksToIgnore (h : asksToIgnore line = true) :
    "package ".toList.isPrefixOf line = false := by
  obtain ⟨terms, rfl, -⟩ := asksToIgnore_iff.1 h
  rfl

/-- A line that asks still does when it goes on, unless its last word does. -/
theorem asksToIgnore_append {rest : List Char} (h : asksToIgnore line = true)
    (hrest : (∃ c more, rest = c :: more ∧ isBlank c = true) ∨ line.getLast? ≠ some 'e') :
    asksToIgnore (line ++ rest) = true := by
  obtain ⟨terms, rfl, hterms⟩ := asksToIgnore_iff.1 h
  refine asksToIgnore_iff.2 ⟨terms ++ rest, by simp, mem_words_append hterms (hrest.imp_right ?_)⟩
  have hne : terms ≠ [] := by
    rintro rfl
    cases hterms
  intro hlast he
  rw [List.getLast?_append_of_ne_nil _ hne] at hlast
  exact hlast he

/-! ## Trimming -/

/-- What is left of a line by trimming stays when something visible follows. -/
theorem trim_append_visible (hleft : trim left ≠ []) (hc : isBlank c = false) (rest : List Char) :
    ∃ gap more, trim (left ++ c :: rest) = trim left ++ (gap ++ more) ∧
      (∀ b ∈ gap, isBlank b = true) ∧ (gap = [] → (trim left).getLast? = left.getLast?) := by
  obtain ⟨front, hfront, hblank⟩ := Layout.exists_blank_start left
  obtain ⟨gap, hgap, hblanks⟩ := Layout.exists_blank_end (trimStart left)
  have hstart : trimStart left ≠ [] := fun h => hleft (by rw [trim, h]; rfl)
  have hkept : trimStart (left ++ c :: rest) = trimStart left ++ c :: rest := by
    rw [trimStart, List.dropWhile_append, if_neg (by simpa [trimStart] using hstart), ← trimStart]
  have hend : trimEnd (trimStart left ++ c :: rest) = trimStart left ++ trimEnd (c :: rest) := by
    have hvisible : ((c :: rest).reverse.dropWhile isBlank) ≠ [] := by
      rw [Ne, List.dropWhile_eq_nil_iff]
      exact fun h => absurd (h c (by simp)) (by simp [hc])
    rw [trimEnd, List.reverse_append, List.dropWhile_append, if_neg (by simpa using hvisible),
      List.reverse_append, List.reverse_reverse, ← trimEnd]
  refine ⟨gap, trimEnd (c :: rest), ?_, hblanks, fun hnil => ?_⟩
  · rw [trim, hkept, hend, trim, ← List.append_assoc, ← hgap]
  · have htrim : trim left = trimStart left := by
      rw [trim]
      simpa [hnil] using hgap.symm
    rw [htrim]
    conv_rhs => rw [hfront]
    rw [List.getLast?_append_of_ne_nil _ hstart]

/-- A line that asks before a visible character still does when the character follows, unless it is
the letter of `ignore` that the character goes on. -/
theorem asksToIgnore_trim_append (hlast : ∀ d, left.getLast? = some d → isBlank d = true ∨ d ≠ 'e')
    (hc : isBlank c = false) (h : asksToIgnore (trim left) = true) (rest : List Char) :
    asksToIgnore (trim (left ++ c :: rest)) = true := by
  have hne : trim left ≠ [] := by
    intro hnil
    rw [hnil] at h
    cases h
  obtain ⟨gap, more, htrim, hblanks, hgap⟩ := trim_append_visible hne hc rest
  rw [htrim]
  refine asksToIgnore_append h ?_
  cases gap with
  | cons b gap => exact .inl ⟨b, gap ++ more, rfl, hblanks b List.mem_cons_self⟩
  | nil =>
    obtain ⟨-, cs, d, hd, hvisible⟩ := Layout.ends_trim hne
    have hlastd : (trim left).getLast? = some d := by rw [hd, List.getLast?_concat]
    refine .inr fun he => ?_
    rw [hlastd] at he
    rcases hlast d (by rw [← hgap rfl, hlastd]) with hblank | hnot
    · rw [hvisible] at hblank
      cases hblank
    · exact hnot (Option.some.inj he)

/-! ## The scan -/

/-- What excludes a text stands in a part of it, or the scan reads it on the rows from the last row
of the part on. -/
theorem any_headerLines (hlast : ∀ d, pre.getLast? = some d → isBlank d = true ∨ d ≠ 'e')
    (hc : isBlank c = false) (rest : List Char) :
    (headerLines (pre ++ c :: rest)).any asksToIgnore =
      ((headerLines pre).any asksToIgnore ||
        ((headerLines (pre ++ c :: rest)).drop (pre.count '\n')).any asksToIgnore) := by
  obtain ⟨above, left, hfeed, hleft, hlength, hlines⟩ := lines_append_split pre
  obtain ⟨first, more, hmore⟩ := lines_append_visible hfeed hc rest
  have hpre : lines pre = above ++ lines left := by simpa using hlines []
  have hlength' : pre.count '\n' = (above.map trim).length := by rw [List.length_map, hlength]
  rw [headerLines, headerLines, hlines, hpre, hmore, List.map_append, List.map_append, hlength',
    List.takeWhile_append, List.takeWhile_append]
  -- A line above that stops the scan stops it in both texts.
  split
  · have hgoes (h : ((((lines left).map trim).takeWhile fun line =>
        !"package ".toList.isPrefixOf line).any asksToIgnore) = true) :
        asksToIgnore (trim (left ++ c :: first)) = true := by
      obtain ⟨line, hline, hasks⟩ := List.any_eq_true.1 h
      obtain ⟨l, hl, rfl⟩ := List.mem_map.1 ((List.takeWhile_prefix _).subset hline)
      have hne : left ≠ [] := by
        rintro rfl
        cases hl
      rw [lines_of_one_line hfeed hne, List.mem_singleton] at hl
      refine asksToIgnore_trim_append (fun d hd => hlast d ?_) hc (hl ▸ hasks) first
      obtain ⟨front, rfl⟩ := hleft
      rw [List.getLast?_append_of_ne_nil _ hne, hd]
    rw [List.drop_left, List.any_append, List.any_append]
    cases hany : (((lines left).map trim).takeWhile fun line =>
        !"package ".toList.isPrefixOf line).any asksToIgnore with
    | false => simp
    | true =>
      have hasks := hgoes hany
      have hclause := not_clause_of_asksToIgnore hasks
      rw [List.map_cons, List.takeWhile_cons_of_pos (by rw [hclause]; rfl), List.any_cons, hasks]
      simp
  · next hstop =>
    have hshort (ls : List (List Char)) (p : List Char → Bool) :
        (ls.takeWhile p).drop ls.length = [] :=
      List.drop_eq_nil_of_le (List.takeWhile_prefix p).length_le
    rw [hshort, List.any_nil, Bool.or_false]

/-- The scan reads no line from a row on that starts as it expects of a package clause. -/
theorem drop_headerLines_eq_nil {row : Nat} (hrow : (lines text)[row]? = some line)
    (hline : "package ".toList.isPrefixOf (trim line) = true) :
    (headerLines text).drop row = [] := by
  refine List.drop_eq_nil_of_le (Nat.le_of_not_lt fun hlt => ?_)
  have hbegins : headerLines text <+: (lines text).map trim := List.takeWhile_prefix _
  have hread : (headerLines text)[row] = trim line := by
    have hsome : ((lines text).map trim)[row]? = some (trim line) := by simp [hrow]
    rw [hbegins.getElem hlt]
    exact (List.getElem_eq_iff _).2 hsome
  have hpass := List.mem_takeWhile_imp (List.getElem_mem hlt)
  rw [hread, hline] at hpass
  cases hpass

/-! ## Package clauses -/

theorem Token.before_eq (text : List Char) (t : Token) :
    t.before text = (if text.head? = some '\ufeff' then ['\ufeff'] else []) ++
      (withoutMark text).take t.start := by
  rw [Token.before, withoutMark]
  split
  · next hmark =>
    obtain ⟨tail, rfl⟩ := List.head?_eq_some_iff.1 hmark
    rfl
  · rfl

theorem Token.before_append (text : List Char) (t : Token) :
    t.before text ++ (withoutMark text).drop t.start = text := by
  rw [Token.before_eq, List.append_assoc, List.take_append_drop, withoutMark]
  split
  · next hmark =>
    obtain ⟨tail, rfl⟩ := List.head?_eq_some_iff.1 hmark
    rfl
  · rfl

theorem Token.count_before (text : List Char) (t : Token) :
    (t.before text).count '\n' = lineFeeds t.start (withoutMark text) := by
  rw [Token.before_eq, List.count_append, lineFeeds]
  split <;> simp

theorem isBlank_of_isSpace {d : Char} (h : isSpace d = true) : isBlank d = true := by
  rw [isSpace, Bool.or_eq_true, Bool.and_eq_true, beq_iff_eq, decide_eq_true_iff,
    decide_eq_true_iff] at h
  rcases h with rfl | ⟨hlow, hhigh⟩
  · rfl
  · have hlow' : 9 ≤ d.toNat := hlow
    have hhigh' : d.toNat ≤ 13 := hhigh
    simp [isBlank, hlow', hhigh']

/-- No letter stands right before what is set apart. -/
theorem Token.before_apart {t : Token} (h : Parted (withoutMark text) t.start) {d : Char}
    (hd : (t.before text).getLast? = some d) : isBlank d = true ∨ d ≠ 'e' := by
  rw [Token.before_eq] at hd
  rcases h with hzero | ⟨c, hc, hapart⟩
  · rw [hzero, List.take_zero, List.append_nil] at hd
    split at hd
    · obtain rfl : '\ufeff' = d := Option.some.inj hd
      exact .inr (by decide)
    · cases hd
  · rw [List.getLast?_append, hc] at hd
    obtain rfl : c = d := Option.some.inj hd
    rcases hapart with hspace | rfl | rfl
    · exact .inl (isBlank_of_isSpace hspace)
    · exact .inr (by decide)
    · exact .inr (by decide)

theorem exists_package {items : List FileItem} (h : packageName items ≠ "") :
    ∃ i ∈ items, ∃ name, i = .package name := by
  by_contra hnone
  refine h ?_
  clear h
  rw [packageName]
  generalize "" = name
  induction items generalizing name with
  | nil => rfl
  | cons i items ih =>
    have hi : ∀ found, i ≠ .package found := fun found hfound =>
      hnone ⟨i, List.mem_cons_self, found, hfound⟩
    have hitems : ¬ ∃ i ∈ items, ∃ name, i = .package name :=
      fun ⟨j, hj, hpackage⟩ => hnone ⟨j, List.mem_cons_of_mem _ hj, hpackage⟩
    cases i with
    | package found => exact absurd rfl (hi found)
    | _ => exact ih hitems name

/-- The text before a package clause decides whether a file is excluded from every build, if and
only if it excludes the file or what the scan reads from the row of the clause on does not. So it
does where the row of the clause starts as the scan expects. -/
theorem SourceFile.isExcluded_before_iff {path text : String} {file : SourceFile}
    (h : SourceFile.parse path text = .ok file) :
    ∃ items, FileGrammar.locate? text.toList = some items ∧
      (∃ i ∈ items, ∃ name, i.element = .package name) ∧
      ∀ i ∈ items, ∀ name, i.element = .package name →
        "package".toList <+: text.toList.drop (i.token.before text.toList).length ∧
        (isExcluded text = isExcluded (String.ofList (i.token.before text.toList)) ↔
          isExcluded (String.ofList (i.token.before text.toList)) = true ∨
            ∀ line ∈ (headerLines text.toList).drop i.token.row, asksToIgnore line = false) ∧
        ∀ line, (lines text.toList)[i.token.row]? = some line →
          "package ".toList.isPrefixOf (trim line) = true →
          isExcluded text = isExcluded (String.ofList (i.token.before text.toList)) := by
  obtain ⟨items, hitems, -, hname⟩ := SourceFile.exists_items h
  refine ⟨items, hitems, ?_, fun i hi name hclause => ?_⟩
  · obtain ⟨element, helement, name, rfl⟩ := exists_package hname
    obtain ⟨i, hi, hpackage⟩ := List.mem_map.1 helement
    exact ⟨i, hi, name, hpackage⟩
  · obtain ⟨⟨rest, hrest⟩, hparted, hrow⟩ :=
      (FileGrammar.locate?_standing hitems i hi).clause name hclause
    have htext : text.toList = i.token.before text.toList ++ 'p' :: ("ackage".toList ++ rest) := by
      have htext := Token.before_append text.toList i.token
      rw [← hrest] at htext
      exact htext.symm
    have hapart (d : Char) (hd : (i.token.before text.toList).getLast? = some d) :
        isBlank d = true ∨ d ≠ 'e' := Token.before_apart hparted hd
    have hvisible : isBlank 'p' = false := rfl
    have hany := any_headerLines hapart hvisible ("ackage".toList ++ rest)
    rw [← htext, Token.count_before, ← hrow] at hany
    refine ⟨⟨rest, ?_⟩, ?_, fun line hline hstarts => ?_⟩
    · calc "package".toList ++ rest
          = (i.token.before text.toList ++ 'p' :: ("ackage".toList ++ rest)).drop
              (i.token.before text.toList).length := List.drop_left.symm
        _ = text.toList.drop (i.token.before text.toList).length := by rw [← htext]
    · rw [isExcluded, isExcluded, String.toList_ofList, hany]
      cases hbefore : (headerLines (i.token.before text.toList)).any asksToIgnore <;> simp
    · rw [drop_headerLines_eq_nil hline hstarts, List.any_nil, Bool.or_false] at hany
      rw [isExcluded, isExcluded, String.toList_ofList, hany]

namespace Constrained

/-- A constraint behind the package clause. -/
def belowClause : String := "package x\n//go:build ignore\n"

/-- The same constraint, where a tab stands in the package clause. -/
def belowTab : String := "package\tx\n//go:build ignore\n"

end Constrained

open Constrained

/-- Behind a clause with a space a constraint is not read. -/
theorem SourceFile.isExcluded_before_iff_below_clause :
    SourceFile.parse "x.go" belowClause = .ok ⟨"x.go", "x", [], []⟩ ∧
    isExcluded belowClause = false ∧
    ∃ items, FileGrammar.locate? belowClause.toList = some items ∧
      (∃ i ∈ items, ∃ name, i.element = .package name) ∧
      ∀ i ∈ items, ∀ name, i.element = .package name →
        "package".toList <+: belowClause.toList.drop (i.token.before belowClause.toList).length ∧
        (isExcluded belowClause = isExcluded (String.ofList (i.token.before belowClause.toList)) ↔
          isExcluded (String.ofList (i.token.before belowClause.toList)) = true ∨
            ∀ line ∈ (headerLines belowClause.toList).drop i.token.row, asksToIgnore line = false) ∧
        ∀ line, (lines belowClause.toList)[i.token.row]? = some line →
          "package ".toList.isPrefixOf (trim line) = true →
          isExcluded belowClause =
            isExcluded (String.ofList (i.token.before belowClause.toList)) := by
  have hparse : SourceFile.parse "x.go" belowClause = .ok ⟨"x.go", "x", [], []⟩ := by cbv
  exact ⟨hparse, by cbv, SourceFile.isExcluded_before_iff hparse⟩

/-- Behind a clause with a tab a constraint excludes the file. Nothing stands before the clause. -/
theorem SourceFile.isExcluded_behind_tab :
    SourceFile.parse "x.go" belowTab = .ok ⟨"x.go", "x", [], []⟩ ∧
    (FileGrammar.locate? belowTab.toList).map
        (List.map fun i => (i.element, i.token.before belowTab.toList)) =
      some [(.package "x", [])] ∧
    isExcluded (String.ofList []) = false ∧ isExcluded belowTab = true :=
  ⟨by cbv, by cbv, by cbv, by cbv⟩

end ResetMethods

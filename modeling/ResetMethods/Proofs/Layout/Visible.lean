import ResetMethods.Proofs.Layout.Lines

/-!
# ResetMethods.Proofs.Layout.Visible

The layout changes white space only, and it keeps the lines.

* `visible`: a line without its white space.
* `visibleLines`: what is visible on some lines, line by line.
* `Lays.visibleLines_eq`: what is laid out shows what it is laid out for.
* `canonicalBytes_visibleLines`: so does the layout of a text.
-/

namespace ResetMethods
namespace Layout

open Text (lines trim trimStart trimEnd isBlank)

/-- A line without its white space. -/
def visible (l : List Char) : List Char := l.filter fun c => !isBlank c

/-- What is visible on each of the lines that are not blank. -/
def visibleLines (ls : List (List Char)) : List (List Char) := (ls.map visible).filter (· ≠ [])

variable {s : Scanner} {l : List Char} {ls out : List (List Char)} {previous : Option (List Char)}
  {pending : Bool}

theorem visible_append (a b : List Char) : visible (a ++ b) = visible a ++ visible b := by
  simp [visible]

theorem visible_eq_nil_iff : visible l = [] ↔ IsBlankLine l := by
  simp [visible, IsBlankLine, List.filter_eq_nil_iff]

theorem visible_trimStart (l : List Char) : visible (trimStart l) = visible l := by
  obtain ⟨bs, hl, hb⟩ := exists_blank_start l
  have hstart : visible bs = [] := visible_eq_nil_iff.2 hb
  calc visible (trimStart l)
      = visible bs ++ visible (trimStart l) := by rw [hstart, List.nil_append]
    _ = visible l := by rw [← visible_append, ← hl]

theorem visible_trimEnd (l : List Char) : visible (trimEnd l) = visible l := by
  obtain ⟨bs, hl, hb⟩ := exists_blank_end l
  have hend : visible bs = [] := visible_eq_nil_iff.2 hb
  calc visible (trimEnd l)
      = visible (trimEnd l) ++ visible bs := by rw [hend, List.append_nil]
    _ = visible l := by rw [← visible_append, ← hl]

theorem visible_trim (l : List Char) : visible (trim l) = visible l := by
  rw [trim, visible_trimEnd, visible_trimStart]

theorem visible_indented (s : Scanner) (text : List Char) :
    visible (indented s text) = visible text := by
  have htabs : visible (List.replicate (s.stack.length - leadingClosers text) '\t') = [] :=
    visible_eq_nil_iff.2 (blank_tabs _)
  rw [indented, visible_append, htabs, List.nil_append]

theorem visible_dropReturn (l : List Char) : visible (dropReturn l) = visible l := by
  by_cases hr : l.getLast? = some '\r'
  · obtain ⟨front, rfl⟩ := List.getLast?_eq_some_iff.1 hr
    have hreturn : visible ['\r'] = [] := by decide
    rw [dropReturn_concat, visible_append, hreturn, List.append_nil]
  · rw [dropReturn_of_ne hr]

theorem visibleLines_cons (l : List Char) (ls : List (List Char)) :
    visibleLines (l :: ls) = (if visible l = [] then [] else [visible l]) ++ visibleLines ls := by
  by_cases h : visible l = [] <;> simp [visibleLines, h]

theorem visibleLines_append (a b : List (List Char)) :
    visibleLines (a ++ b) = visibleLines a ++ visibleLines b := by
  simp [visibleLines]

/-- A blank line that is kept shows nothing. -/
theorem visibleLines_gap (previous : Option (List Char)) (pending : Bool) (text : List Char) :
    visibleLines (gap previous pending text) = [] := by
  unfold gap
  split <;> rfl

/-- Line by line, what is laid out shows what it is laid out for. -/
theorem Lays.visibleLines_eq (h : Lays s previous pending ls out) :
    visibleLines out = visibleLines ls := by
  induction h with
  | done => rfl
  | blank _ hb _ ih =>
    rw [visibleLines_cons, visible_eq_nil_iff.2 hb, if_pos rfl, List.nil_append]
    exact ih
  | code _ _ _ _ ih =>
    rw [visibleLines_append, visibleLines_gap, List.nil_append, visibleLines_cons,
      visibleLines_cons, visible_indented, visible_trim, ih]
  | rawString _ _ _ ih => rw [visibleLines_cons, visibleLines_cons, ih]
  | blockComment _ _ _ ih => rw [visibleLines_cons, visibleLines_cons, visible_trimEnd, ih]

/-- Laying a text out changes white space only: no line with anything visible on it is lost,
doubled, split, joined to another or moved. -/
theorem canonicalBytes_visibleLines {text : String} {out : ByteArray}
    (h : canonicalBytes text.toUTF8 = .ok out) :
    ∃ laid : String, out = laid.toUTF8 ∧
      visibleLines (lines laid.toList) = visibleLines (lines text.toList) := by
  obtain ⟨ls, hlays, hone, rfl⟩ := exists_lays h
  refine ⟨String.ofList (unlines ls), rfl, ?_⟩
  have hreturns : (ls.map dropReturn).map visible = ls.map visible := by
    simp [visible_dropReturn]
  calc visibleLines (lines (String.ofList (unlines ls)).toList)
      = visibleLines (ls.map dropReturn) := by rw [String.toList_ofList, lines_unlines_eq hone]
    _ = visibleLines ls := by rw [visibleLines, hreturns, visibleLines]
    _ = visibleLines (lines text.toList) := hlays.visibleLines_eq

def scattered : String := "f(  \n\n\n a,\n\x60x \n  y\x60)  \n"

def gathered : String := "f(\n\ta,\n\t\x60x\n  y\x60)  \n"

theorem scattered_laidOut : canonicalBytes scattered.toUTF8 = .ok gathered.toUTF8 :=
  canonicalBytes_ok_of_canonical (by cbv)

/-- White space goes at five places here, of which one is in a raw string. -/
theorem canonicalBytes_visibleLines_scattered :
    canonicalBytes scattered.toUTF8 = .ok gathered.toUTF8 ∧
      ∃ laid : String, gathered.toUTF8 = laid.toUTF8 ∧
        visibleLines (lines laid.toList) = visibleLines (lines scattered.toList) :=
  ⟨scattered_laidOut, canonicalBytes_visibleLines scattered_laidOut⟩

end Layout
end ResetMethods

import ResetMethods.Proofs.Layout.Lines

/-!
# ResetMethods.Proofs.Layout.Repeated

Laying out a text that is laid out already.

* `Lays.again`: lines that are laid out stay as they are.
* `Lays.exists_again`: as a text, they are accepted again. What comes back are the lines without the
  carriage returns at their ends, since these become part of the line breaks.
* `Lays.no_return_iff`: only lines that begin in a raw string end in a carriage return.
* `count_return_le`: the layout adds no carriage returns, so one that is lost stays lost.
* `canonicalBytes_again`: laying out a second time changes nothing, unless a line that begins in a
  raw string ends in a carriage return before its line break.
-/

namespace ResetMethods
namespace Layout

open Text (lines trim trimStart trimEnd isBlank)

variable {s : Scanner} {l : List Char} {ls out : List (List Char)} {previous : Option (List Char)}
  {pending : Bool}

/-! ## Lines that are laid out -/

/-- Lines that are laid out stay as they are. -/
theorem Lays.again (h : Lays s previous pending ls out)
    (hp : pending = true → previous.isSome = true) : Lays s previous false out out := by
  induction h with
  | done hc => exact .done hc
  | blank _ _ _ ih => exact ih id
  | @code s s' previous pending raw rest below hs hraw ha _ ih =>
    have hline : s.after? (indented s (trim raw)) = some s' := by
      rw [Scanner.after?_indented_trim hs, ha]
    have hcode (pending : Bool) : Lays s previous pending (indented s (trim raw) :: below)
        (gap previous pending (trim raw) ++ indented s (trim raw) :: below) := by
      have hbelow := ih (by simp)
      have h : Lays s previous pending (indented s (trim raw) :: below) _ :=
        .code hs (not_isBlankLine_indented hraw s) hline (by rwa [trim_indented_eq hraw])
      rwa [trim_indented_eq hraw] at h
    obtain hgap | ⟨hgap, hpending, hkept⟩ := gap_cases previous pending (trim raw)
    · have h := hcode false
      rw [gap_false] at h
      rw [hgap]
      exact h
    · -- the blank line that was kept is the reason to keep one
      have h := hcode previous.isSome
      rw [hp hpending, hkept, ← hp hpending] at h
      rw [hgap]
      exact .blank hs (by simp [IsBlankLine]) h
  | rawString hs ha _ ih => exact .rawString hs ha (ih (by simp))
  | @blockComment s s' previous _ raw _ below hs ha _ ih =>
    have htrim := trimEnd_of_ends (ends_trimEnd raw)
    have hline : s.after? (trimEnd raw) = some s' := by rw [Scanner.after?_trimEnd, ha]
    have hbelow : Lays s' (some (trimEnd (trimEnd raw))) false below below := by
      rw [htrim]
      exact ih (by simp)
    have h : Lays s previous false (trimEnd raw :: below) _ := .blockComment hs hline hbelow
    rwa [htrim] at h

/-! ## The lines of a text that is laid out -/

theorem scanLines_dropReturn (n : Nat) (s : Scanner) (ls : List (List Char)) :
    scanLines n s (ls.map dropReturn) = scanLines n s ls := by
  induction ls generalizing n s with
  | nil => rfl
  | cons l ls ih =>
    have hl : scanLine n s (dropReturn l) = scanLine n s l := by
      by_cases hr : l.getLast? = some '\r'
      · obtain ⟨front, rfl⟩ := List.getLast?_eq_some_iff.1 hr
        rw [dropReturn_concat, scanLine_concat (by decide)]
      · rw [dropReturn_of_ne hr]
    rw [List.map_cons, scanLines, scanLines, hl]
    cases scanLine n s l with
    | error e => rfl
    | ok s' => exact ih (n + 1) s'

/-- Lines are laid out where scanning them meets no offence. -/
theorem exists_lays_iff :
    (∃ out, Lays s previous pending ls out) ↔ scanLines 1 s ls = .ok () := by
  simp only [← layoutFrom_eq_ok_iff (n := 1), ← layoutFrom_verdict 1 s previous pending ls]
  cases layoutFrom 1 s previous pending ls with
  | error e => simp [Except.map]
  | ok out => simp [Except.map]

/-- Lines that are laid out are accepted again without the carriage returns at their ends. -/
theorem Lays.exists_again (h : Lays s none false ls out) :
    ∃ again, Lays s none false (out.map dropReturn) again := by
  rw [exists_lays_iff, scanLines_dropReturn, ← exists_lays_iff]
  exact ⟨out, h.again (by simp)⟩

/-! ## Carriage returns -/

/-- A line that begins in a raw string does not end in a carriage return. -/
def NoRawReturn (s : Scanner) (l : List Char) : Prop :=
  s.mode = .rawString → l.getLast? ≠ some '\r'

theorem Ends.getLast_ne (h : Ends l) : l.getLast? ≠ some '\r' := by
  obtain ⟨cs, c, rfl, hc⟩ := h
  intro hr
  simp only [List.getLast?_append, List.getLast?_singleton, Option.some_or, Option.some.injEq] at hr
  rw [hr] at hc
  exact absurd hc (by decide)

/-- Only lines that begin in a raw string keep a carriage return at their end. -/
theorem Lays.no_return_iff (h : Lays s previous pending ls out) :
    (∀ l ∈ out, l.getLast? ≠ some '\r') ↔ AtEachLine NoRawReturn s ls := by
  induction h with
  | done => exact ⟨fun _ => atEachLine_nil _ _, fun _ => by simp⟩
  | @blank s _ _ raw _ _ hs hb _ ih =>
    have hraw : NoRawReturn s raw := fun hr => by simp [hs] at hr
    rw [atEachLine_cons (Scanner.after?_blank hb s), ih]
    simp [hraw]
  | @code s _ previous pending raw _ below hs hraw ha _ ih =>
    have hnone : NoRawReturn s raw := fun hr => by simp [hs] at hr
    have hline : (indented s (trim raw)).getLast? ≠ some '\r' :=
      Ends.getLast_ne ((ends_trim (mt trim_eq_nil_iff.1 hraw)).2.append _)
    have hgap : ∀ l ∈ gap previous pending (trim raw), l.getLast? ≠ some '\r' := by
      intro l hl
      simp [eq_nil_of_mem_gap hl]
    rw [atEachLine_cons ha, ← ih, List.forall_mem_append, List.forall_mem_cons]
    exact ⟨fun h => ⟨hnone, h.2.2⟩, fun h => ⟨hgap, hline, h.2⟩⟩
  | @rawString s _ _ _ raw _ _ hs ha _ ih =>
    rw [atEachLine_cons ha, ← ih, List.forall_mem_cons]
    simp [NoRawReturn, hs]
  | @blockComment s _ _ _ raw _ _ hs ha _ ih =>
    have hnone : NoRawReturn s raw := fun hr => by simp [hs] at hr
    have hline : (trimEnd raw).getLast? ≠ some '\r' := by
      obtain hnil | hends := ends_trimEnd raw
      · simp [hnil]
      · exact hends.getLast_ne
    rw [atEachLine_cons ha, ← ih, List.forall_mem_cons]
    simp [hnone, hline]

theorem count_indented (s : Scanner) (text : List Char) :
    (indented s text).count '\r' = text.count '\r' := by
  rw [indented, List.count_append, List.count_replicate]
  simp

/-- The layout adds no carriage return. -/
theorem Lays.count_return_le (h : Lays s previous pending ls out) :
    out.flatten.count '\r' ≤ ls.flatten.count '\r' := by
  induction h with
  | done => simp
  | blank _ _ _ ih =>
    rw [List.flatten_cons, List.count_append]
    omega
  | @code s _ previous pending raw _ below _ _ _ _ ih =>
    have hgap : (gap previous pending (trim raw)).flatten = [] :=
      List.flatten_eq_nil_iff.2 fun _ hl => eq_nil_of_mem_gap hl
    have htrim : (trim raw).count '\r' ≤ raw.count '\r' := (trim_sublist raw).count_le _
    rw [List.flatten_append, hgap, List.nil_append, List.flatten_cons, List.flatten_cons,
      List.count_append, List.count_append, count_indented]
    omega
  | rawString _ _ _ ih =>
    rw [List.flatten_cons, List.flatten_cons, List.count_append, List.count_append]
    omega
  | @blockComment _ _ _ _ raw _ _ _ _ _ ih =>
    have htrim : (trimEnd raw).count '\r' ≤ raw.count '\r' := (trimEnd_sublist raw).count_le _
    rw [List.flatten_cons, List.flatten_cons, List.count_append, List.count_append]
    omega

theorem count_dropReturn (l : List Char) :
    (dropReturn l).count '\r' ≤ l.count '\r' ∧
      (l.count '\r' ≤ (dropReturn l).count '\r' → l.getLast? ≠ some '\r') := by
  by_cases hr : l.getLast? = some '\r'
  · obtain ⟨front, rfl⟩ := List.getLast?_eq_some_iff.1 hr
    rw [dropReturn_concat, List.count_append, List.count_singleton_self]
    omega
  · rw [dropReturn_of_ne hr]
    exact ⟨Nat.le_refl _, fun _ => hr⟩

/-- Lines lose carriage returns unless none of them ends in one. -/
theorem count_map_dropReturn (ls : List (List Char)) :
    (ls.map dropReturn).flatten.count '\r' ≤ ls.flatten.count '\r' ∧
      (ls.flatten.count '\r' ≤ (ls.map dropReturn).flatten.count '\r' →
        ∀ l ∈ ls, l.getLast? ≠ some '\r') := by
  induction ls with
  | nil => simp
  | cons l ls ih =>
    obtain ⟨hle, hlast⟩ := count_dropReturn l
    rw [List.map_cons, List.flatten_cons, List.flatten_cons, List.count_append, List.count_append]
    refine ⟨by omega, fun h => List.forall_mem_cons.2 ⟨hlast (by omega), ih.2 (by omega)⟩⟩

theorem count_unlines (ls : List (List Char)) :
    (unlines ls).count '\r' = ls.flatten.count '\r' := by
  induction ls with
  | nil => rfl
  | cons l ls ih =>
    rw [unlines_cons, List.flatten_cons, List.count_append, List.count_append, List.count_cons, ih]
    simp

/-! ## Texts -/

theorem toUTF8_injective {a b : String} (h : a.toUTF8 = b.toUTF8) : a = b := by
  have h := congrArg String.fromUTF8? h
  rwa [fromUTF8?_toUTF8, fromUTF8?_toUTF8, Option.some.injEq] at h

/-- A text that is laid out is accepted, and it comes back as it is unless a line of the first text
begins in a raw string and ends in a carriage return even without its line break. -/
theorem canonicalBytes_again {text : String} {out : ByteArray}
    (h : canonicalBytes text.toUTF8 = .ok out) :
    ∃ again, canonicalBytes out = .ok again ∧
      (again = out ↔ AtEachLine NoRawReturn .initial (lines text.toList)) := by
  obtain ⟨ls, hlays, hone, rfl⟩ := exists_lays h
  have hlines : lines (String.ofList (unlines ls)).toList = ls.map dropReturn := by
    rw [String.toList_ofList, lines_unlines_eq hone]
  obtain ⟨ls', hagain⟩ := hlays.exists_again
  refine ⟨(String.ofList (unlines ls')).toUTF8,
    canonicalBytes_eq_ok_iff.2 ⟨ls', by rwa [hlines], rfl⟩, ?_⟩
  rw [← hlays.no_return_iff]
  constructor
  · intro heq
    have htext : unlines ls' = unlines ls := by
      simpa using congrArg String.toList (toUTF8_injective heq)
    have hcount := congrArg (List.count '\r') htext
    rw [count_unlines, count_unlines] at hcount
    have hle := hagain.count_return_le
    exact (count_map_dropReturn ls).2 (by omega)
  · intro hnone
    have hsame : ls.map dropReturn = ls := by
      rw [List.map_congr_left fun l hl => dropReturn_of_ne (hnone l hl), List.map_id']
    rw [hsame] at hagain
    have hls : ls' = ls := by
      have h := (hlays.again (by simp)).layoutFrom_eq 1
      rw [hagain.layoutFrom_eq 1] at h
      exact Except.ok.inj h
    rw [hls]

def returning : String := "f(\x60\na\r\r\n\x60,\r\n\r\nb)\r\n"

def returned : String := "f(\x60\na\r\n\x60,\n\n\tb)\n"

/-- A carriage return that the first layout leaves in a raw string is lost to a line break in the
second. -/
theorem canonicalBytes_again_returned :
    canonicalBytes returning.toUTF8 = .ok returned.toUTF8 ∧
      ∃ again, canonicalBytes returned.toUTF8 = .ok again ∧
        (again = returned.toUTF8 ↔ AtEachLine NoRawReturn .initial (lines returning.toList)) := by
  have h : canonicalBytes returning.toUTF8 = .ok returned.toUTF8 :=
    canonicalBytes_ok_of_canonical (by cbv)
  exact ⟨h, canonicalBytes_again h⟩

end Layout
end ResetMethods

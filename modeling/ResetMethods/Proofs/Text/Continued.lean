import Mathlib.Data.List.Basic
import Mathlib.Data.List.Induction
import ResetMethods.Text.Lines

/-!
# ResetMethods.Proofs.Text.Continued

The lines and the words of a text that goes on.

* `lines_append_split`: its last line goes on in what follows, the lines above it stay.
* `lines_append_visible`: so does the line on which something visible follows.
* `words_append_blank`: white space ends a word.
* `mem_words_append`: a word stays a word, unless it is the last one and goes on itself.
-/

namespace ResetMethods
namespace Text

variable {left : List Char} {c : Char}

/-! ## Lines -/

/-- A text up to a line feed is cut into lines, whatever follows. -/
theorem lines_append_feed (front : List Char) :
    ∃ above, above.length = front.count '\n' + 1 ∧
      ∀ rest, lines (front ++ '\n' :: rest) = above ++ lines rest := by
  induction front with
  | nil => exact ⟨[[]], rfl, fun rest => by simp [lines]⟩
  | cons c front ih =>
    obtain ⟨above, hlength, habove⟩ := ih
    obtain ⟨d, hd⟩ : ∃ d, ∀ rest, (front ++ '\n' :: rest).head? = some d := by
      cases front with
      | nil => exact ⟨_, fun _ => rfl⟩
      | cons d front => exact ⟨d, fun _ => rfl⟩
    by_cases hc : c = '\n'
    · exact ⟨[] :: above, by simp [hlength, hc], fun rest => by simp [lines, hc, habove]⟩
    · by_cases hbreak : c = '\r' ∧ d = '\n'
      · refine ⟨above, by simp [hlength, hc], fun rest => ?_⟩
        rw [List.cons_append, lines, if_neg hc, if_pos (by simpa [hd] using hbreak), habove]
      · obtain ⟨first, more, rfl⟩ : ∃ first more, above = first :: more :=
          List.exists_cons_of_length_eq_add_one hlength
        refine ⟨(c :: first) :: more, by simpa [hc] using hlength, fun rest => ?_⟩
        rw [List.cons_append, lines, if_neg hc, if_neg (by simpa [hd] using hbreak), habove, hd]
        rfl

/-- The last line of a text goes on in what follows; the lines above it stay. -/
theorem lines_append_split (pre : List Char) :
    ∃ above left, '\n' ∉ left ∧ left <:+ pre ∧ above.length = pre.count '\n' ∧
      ∀ rest, lines (pre ++ rest) = above ++ lines (left ++ rest) := by
  by_cases h : '\n' ∈ pre.reverse
  · obtain ⟨after, front, hpre, hafter⟩ := List.eq_append_cons_of_mem h
    obtain rfl : pre = front.reverse ++ '\n' :: after.reverse := by
      rw [← List.reverse_reverse pre, hpre]
      simp
    obtain ⟨above, hlength, habove⟩ := lines_append_feed front.reverse
    refine ⟨above, after.reverse, by simpa using hafter, ⟨front.reverse ++ ['\n'], by simp⟩, ?_, ?_⟩
    · have hcount : after.reverse.count '\n' = 0 := List.count_eq_zero.2 (by simpa using hafter)
      rw [hlength, List.count_append, List.count_cons_self, hcount]
    · intro rest
      rw [List.append_assoc, List.cons_append, habove]
  · have hcount : pre.count '\n' = 0 := List.count_eq_zero.2 (by simpa using h)
    exact ⟨[], pre, by simpa using h, List.suffix_rfl, hcount.symm, fun rest => rfl⟩

theorem lines_of_one_line (h : '\n' ∉ left) (hne : left ≠ []) : lines left = [left] := by
  induction left with
  | nil => exact absurd rfl hne
  | cons c rest ih =>
    obtain ⟨hc, hrest⟩ := List.ne_and_not_mem_of_not_mem_cons h
    have hbreak : ¬ (c = '\r' ∧ rest.head? = some '\n') :=
      fun ⟨_, hhead⟩ => hrest (List.mem_of_mem_head? hhead)
    rw [lines, if_neg hc.symm, if_neg hbreak]
    cases rest with
    | nil => rfl
    | cons d rest => rw [ih hrest (List.cons_ne_nil d rest)]; rfl

/-- The start of a line, and what follows with a visible character. -/
theorem lines_append_visible (h : '\n' ∉ left) (hc : isBlank c = false) (rest : List Char) :
    ∃ first more, lines (left ++ c :: rest) = (left ++ c :: first) :: more := by
  have hfeed : c ≠ '\n' := by rintro rfl; cases hc
  induction left with
  | nil =>
    have hreturn : c ≠ '\r' := by rintro rfl; cases hc
    rw [List.nil_append, lines, if_neg hfeed, if_neg fun h => hreturn h.1]
    split
    · exact ⟨_, _, rfl⟩
    · exact ⟨[], _, rfl⟩
  | cons d left ih =>
    obtain ⟨hd, hleft⟩ := List.ne_and_not_mem_of_not_mem_cons h
    obtain ⟨first, more, hlines⟩ := ih hleft
    have hhead : ∃ e, (left ++ c :: rest).head? = some e ∧ e ≠ '\n' := by
      cases left with
      | nil => exact ⟨c, rfl, hfeed⟩
      | cons e left => exact ⟨e, rfl, fun he => hleft (he ▸ List.mem_cons_self)⟩
    obtain ⟨e, he, hne⟩ := hhead
    have hbreak : ¬ (d = '\r' ∧ (left ++ c :: rest).head? = some '\n') := by simp [he, hne]
    refine ⟨first, more, ?_⟩
    rw [List.cons_append, lines, if_neg hd.symm, if_neg hbreak, hlines, he]
    rfl

/-! ## Words -/

theorem words_ne_nil {cs : List Char} (hc : isBlank c = false) : words (c :: cs) ≠ [] := by
  rw [words, if_neg (by simp [hc])]
  split
  · split <;> exact List.cons_ne_nil _ _
  · exact List.cons_ne_nil _ _

theorem words_append_blank (hc : isBlank c = true) (a b : List Char) :
    words (a ++ c :: b) = words a ++ words b := by
  induction a with
  | nil => simp [words, hc]
  | cons d a ih =>
    by_cases hd : isBlank d = true
    · simp [words, hd, ih]
    · rw [List.cons_append, words, if_neg hd, ih, words, if_neg hd]
      cases a with
      | nil => cases words b <;> simp [words, hc]
      | cons e a =>
        cases hwords : words (e :: a) with
        | nil =>
          have he : isBlank e = true := by
            by_contra he
            exact words_ne_nil (by simpa using he) hwords
          cases words b <;> simp [he]
        | cons w ws => by_cases he : isBlank e = true <;> simp [he]

theorem words_of_visible {w : List Char} (hw : ∀ c ∈ w, isBlank c = false) (hne : w ≠ []) :
    words w = [w] := by
  induction w with
  | nil => exact absurd rfl hne
  | cons c w ih =>
    rw [words, if_neg (by simp [hw c List.mem_cons_self])]
    cases w with
    | nil => rfl
    | cons d w =>
      have hd : isBlank d = false := hw d (by simp)
      rw [ih (fun c hc => hw c (List.mem_cons_of_mem _ hc)) (List.cons_ne_nil d w)]
      simp [hd]

/-- A text ends in a run without white space, perhaps an empty one. -/
theorem exists_last_word (a : List Char) :
    ∃ front last, a = front ++ last ∧ (∀ c ∈ last, isBlank c = false) ∧
      (front = [] ∨ ∃ before c, front = before ++ [c] ∧ isBlank c = true) := by
  induction a using List.reverseRecOn with
  | nil => exact ⟨[], [], rfl, by simp, .inl rfl⟩
  | append_singleton a c ih =>
    by_cases hc : isBlank c = true
    · exact ⟨a ++ [c], [], by simp, by simp, .inr ⟨a, c, rfl, hc⟩⟩
    · obtain ⟨front, last, rfl, hvisible, hfront⟩ := ih
      refine ⟨front, last ++ [c], by simp, fun d hd => ?_, hfront⟩
      rcases List.mem_append.1 hd with hd | hd
      · exact hvisible d hd
      · obtain rfl := List.mem_singleton.1 hd
        simpa using hc

/-- A word of a text that goes on stays a word, unless it is the last one and goes on itself. -/
theorem mem_words_append {w a b : List Char} (h : w ∈ words a)
    (hb : (∃ c rest, b = c :: rest ∧ isBlank c = true) ∨ a.getLast? ≠ w.getLast?) :
    w ∈ words (a ++ b) := by
  rcases hb with ⟨c, rest, rfl, hc⟩ | hlast
  · rw [words_append_blank hc]
    exact List.mem_append_left _ h
  · obtain ⟨front, last, rfl, hvisible, hfront⟩ := exists_last_word a
    have hnot : w ∉ words last := by
      intro hw
      by_cases hne : last = []
      · simp [hne, words] at hw
      · rw [words_of_visible hvisible hne, List.mem_singleton] at hw
        exact hlast (by rw [hw, List.getLast?_append_of_ne_nil _ hne])
    rcases hfront with rfl | ⟨before, c, rfl, hc⟩
    · exact absurd h hnot
    · rw [List.append_assoc, List.singleton_append, words_append_blank hc] at h
      rw [List.append_assoc, List.append_assoc, List.singleton_append, words_append_blank hc]
      exact List.mem_append_left _ ((List.mem_append.1 h).resolve_right hnot)

end Text
end ResetMethods

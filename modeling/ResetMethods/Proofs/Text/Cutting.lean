import ResetMethods.Text.Lines

/-!
# ResetMethods.Proofs.Text.Cutting

Pieces of a text around a separator.

* `pieces_of_not_mem`: a text without the separator is one piece.
* `pieces_append`: the pieces around one separator are those before it and those behind it.
* `after?_eq_some`, `after?_append`: what follows a start.
-/

namespace ResetMethods
namespace Text

variable {sep : Char} {l : List Char}

theorem pieces_of_not_mem (h : sep ∉ l) : pieces sep l = [l] := by
  induction l with
  | nil => rfl
  | cons c cs ih =>
    rw [List.mem_cons, not_or] at h
    rw [pieces, if_neg (Ne.symm h.1), ih h.2]

theorem pieces_append (sep : Char) (l m : List Char) :
    pieces sep (l ++ sep :: m) = pieces sep l ++ pieces sep m := by
  induction l with
  | nil => simp [pieces]
  | cons c cs ih =>
    rw [List.cons_append, pieces, pieces, ih]
    split
    · rfl
    · obtain ⟨p, ps, hp⟩ := List.exists_cons_of_ne_nil (pieces_ne_nil sep cs)
      rw [hp]
      rfl

/-- A text without the separator is a piece of its own before one. -/
theorem pieces_cons (h : sep ∉ l) (m : List Char) :
    pieces sep (l ++ sep :: m) = l :: pieces sep m := by
  rw [pieces_append, pieces_of_not_mem h]
  rfl

theorem not_mem_of_mem_pieces {p : List Char} (hp : p ∈ pieces sep l) : sep ∉ p := by
  induction l generalizing p with
  | nil =>
    rw [pieces, List.mem_singleton] at hp
    simp [hp]
  | cons c cs ih =>
    rw [pieces] at hp
    split at hp
    · rcases List.mem_cons.1 hp with rfl | hp
      · exact List.not_mem_nil
      · exact ih hp
    · next hc =>
      obtain ⟨first, rest, hcs⟩ := List.exists_cons_of_ne_nil (pieces_ne_nil sep cs)
      rw [hcs] at hp ih
      rcases List.mem_cons.1 hp with rfl | hp
      · rw [List.mem_cons, not_or]
        exact ⟨Ne.symm hc, ih List.mem_cons_self⟩
      · exact ih (List.mem_cons_of_mem _ hp)

theorem after?_eq_some {α : Type} [DecidableEq α] {start cs rest : List α}
    (h : after? start cs = some rest) : cs = start ++ rest := by
  rw [after?] at h
  split at h
  · next hp =>
    obtain ⟨tail, rfl⟩ := List.isPrefixOf_iff_prefix.1 hp
    rw [List.drop_left, Option.some.injEq] at h
    rw [h]
  · cases h

theorem after?_append {α : Type} [DecidableEq α] (start rest : List α) :
    after? start (start ++ rest) = some rest := by
  have hprefix : start.isPrefixOf (start ++ rest) = true :=
    List.isPrefixOf_iff_prefix.2 (List.prefix_append start rest)
  rw [after?, if_pos hprefix, List.drop_left]

end Text
end ResetMethods

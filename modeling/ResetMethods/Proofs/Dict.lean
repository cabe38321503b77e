import Mathlib.Data.List.Nodup
import ResetMethods.Dict

/-!
# ResetMethods.Proofs.Dict

Dictionaries by what they hold.

* `Dict.mem_entries_iff`: the entries are the answers of `get?`.
* `Dict.eq_of_mem_iff`: lists that are sorted by a key are equal if they have the same elements, so a
  dictionary is fixed by its answers (`Dict.ext_get?`).
* `Dict.ofList_perm`: bindings of different keys all stay, in another order.
* `get?_modify`, `get?_erase`, `get?_insertAllNew`: the answers after an operation.
-/

namespace ResetMethods
namespace Dict

variable {κ ν : Type} [Ord κ]

/-! ## Order -/

section Sorted

variable [Std.TransOrd κ]

theorem not_lt_self (k : κ) : compare k k ≠ .lt := by
  have hself : compare k k = .eq := Std.ReflCmp.compare_self
  rw [hself]
  decide

variable {α : Type} {f : α → κ} {l m : List α}

theorem nodup_of_sorted (h : l.Pairwise fun a b => compare (f a) (f b) = .lt) : l.Nodup := by
  refine h.imp ?_
  rintro a b hlt rfl
  exact not_lt_self (f a) hlt

theorem eq_of_mem_iff (hl : l.Pairwise fun a b => compare (f a) (f b) = .lt)
    (hm : m.Pairwise fun a b => compare (f a) (f b) = .lt) (h : ∀ e, e ∈ l ↔ e ∈ m) : l = m := by
  have hperm : l.Perm m :=
    (List.perm_ext_iff_of_nodup (nodup_of_sorted hl) (nodup_of_sorted hm)).2 h
  refine hperm.eq_of_pairwise ?_ hl hm
  intro a b _ _ hab hba
  have hgt : compare (f a) (f b) = .gt := Std.OrientedCmp.gt_of_lt hba
  rw [hab] at hgt
  cases hgt

end Sorted

theorem insertEntry_perm [Std.LawfulEqOrd κ] {k : κ} {v : ν} {l : List (κ × ν)}
    (h : ∀ e ∈ l, e.1 ≠ k) : (insertEntry k v l).Perm ((k, v) :: l) := by
  induction l with
  | nil => exact .refl _
  | cons head rest ih =>
    obtain ⟨hhead, hrest⟩ := List.forall_mem_cons.1 h
    rw [insertEntry]
    split
    · exact .refl _
    · next heq => exact absurd (Std.LawfulEqCmp.eq_of_compare heq).symm hhead
    · exact ((ih hrest).cons head).trans (.swap _ _ _)

variable [Std.TransOrd κ] [Std.LawfulEqOrd κ]

theorem ofList_perm {l : List (κ × ν)} (h : (l.map (·.1)).Nodup) : (ofList l).entries.Perm l := by
  -- for every dictionary so far that has none of the keys to come
  have hfold : ∀ (l : List (κ × ν)) (d : Dict κ ν), (l.map (·.1)).Nodup →
      (∀ e ∈ l, ∀ e' ∈ d.entries, e'.1 ≠ e.1) →
      (l.foldl (fun d e => d.insert e.1 e.2) d).entries.Perm (l ++ d.entries) := by
    intro l
    induction l with
    | nil => exact fun d _ _ => .refl _
    | cons head rest ih =>
      intro d hn hd
      rw [List.map_cons, List.nodup_cons] at hn
      obtain ⟨hhead, hrest⟩ := List.forall_mem_cons.1 hd
      have hinsert : (d.insert head.1 head.2).entries.Perm (head :: d.entries) :=
        insertEntry_perm hhead
      refine (ih (d.insert head.1 head.2) hn.2 ?_).trans ?_
      · intro e he e' he'
        rcases List.mem_cons.1 (hinsert.mem_iff.1 he') with rfl | he'
        · intro heq
          exact hn.1 (heq ▸ List.mem_map_of_mem he)
        · exact hrest e he e' he'
      · exact (hinsert.append_left rest).trans List.perm_middle
  have hall := hfold l empty h fun _ _ _ he => nomatch he
  rw [show (empty : Dict κ ν).entries = [] from rfl, List.append_nil] at hall
  exact hall

/-! ## Answers -/

section Answers

variable [DecidableEq κ] {d d' : Dict κ ν}

theorem mem_iff_lookup {l : List (κ × ν)} (h : l.Pairwise fun a b => compare a.1 b.1 = .lt)
    {k : κ} {v : ν} : (k, v) ∈ l ↔ l.lookup k = some v := by
  induction l with
  | nil => simp
  | cons head rest ih =>
    obtain ⟨hhead, hrest⟩ := List.pairwise_cons.1 h
    obtain ⟨k', v'⟩ := head
    by_cases hk : k = k'
    · subst hk
      have hout : (k, v) ∉ rest := by
        intro hm
        exact not_lt_self k (hhead _ hm)
      simp [hout, eq_comm]
    · rw [List.lookup_cons, beq_eq_false_iff_ne.2 hk, ← ih hrest, List.mem_cons]
      simp [hk]

theorem mem_entries_iff {k : κ} {v : ν} : (k, v) ∈ d.entries ↔ d.get? k = some v :=
  mem_iff_lookup d.sorted

theorem ext_get? (h : ∀ k, d.get? k = d'.get? k) : d = d' := by
  have hentries : d.entries = d'.entries := by
    refine eq_of_mem_iff d.sorted d'.sorted fun e => ?_
    obtain ⟨k, v⟩ := e
    rw [mem_entries_iff, mem_entries_iff, h]
  cases d
  cases d'
  cases hentries
  rfl

theorem get?_modify (d : Dict κ ν) (k j : κ) (f : ν → ν) :
    (d.modify k f).get? j = if j = k then (d.get? k).map f else d.get? j := by
  have h : ∀ l : List (κ × ν), (l.map fun e => if e.1 = k then (e.1, f e.2) else e).lookup j =
      if j = k then (l.lookup k).map f else l.lookup j := by
    intro l
    induction l with
    | nil => simp
    | cons head rest ih =>
      obtain ⟨k', v⟩ := head
      by_cases hj : j = k'
      · subst hj
        by_cases hk : j = k
        · subst hk
          simp
        · simp [hk]
      · have hj' : (j == k') = false := beq_eq_false_iff_ne.2 hj
        by_cases hk : k' = k
        · subst hk
          simp only [List.map_cons, if_true, List.lookup_cons, hj', ih, if_neg hj]
        · have hk' : (k == k') = false := beq_eq_false_iff_ne.2 (Ne.symm hk)
          simp only [List.map_cons, if_neg hk, List.lookup_cons, hj', hk', ih]
  exact h d.entries

theorem get?_erase (d : Dict κ ν) (k j : κ) :
    (d.erase k).get? j = if j = k then none else d.get? j := by
  have h : ∀ l : List (κ × ν), (l.filter fun e => e.1 ≠ k).lookup j =
      if j = k then none else l.lookup j := by
    intro l
    induction l with
    | nil => simp
    | cons head rest ih =>
      obtain ⟨k', v⟩ := head
      by_cases hk : k' = k
      · subst hk
        rw [List.filter_cons_of_neg (by simp), ih, List.lookup_cons]
        by_cases hj : j = k'
        · simp [hj]
        · rw [if_neg hj, if_neg hj, beq_eq_false_iff_ne.2 hj]
      · rw [List.filter_cons_of_pos (by simpa using hk), List.lookup_cons, List.lookup_cons, ih]
        by_cases hj : j = k'
        · subst hj
          rw [beq_self_eq_true, if_neg hk, if_neg hk]
        · rw [beq_eq_false_iff_ne.2 hj]
  exact h d.entries

theorem get?_insertIfNew (d : Dict κ ν) (k j : κ) (v : ν) :
    (d.insertIfNew k v).get? j = (d.get? j).or (if j = k then some v else none) := by
  unfold insertIfNew contains
  by_cases hj : j = k
  · subst hj
    cases hd : d.get? j with
    | none => simp [get?_insert]
    | some w => simp [hd]
  · rw [if_neg hj, Option.or_none]
    split
    · rfl
    · rw [get?_insert, if_neg hj]

/-- Of several values for one key the first stays. -/
theorem get?_insertAllNew (l : List (κ × ν)) (d : Dict κ ν) (k : κ) :
    (l.foldl (fun d e => d.insertIfNew e.1 e.2) d).get? k =
      (d.get? k).or ((l.find? (·.1 = k)).map (·.2)) := by
  induction l generalizing d with
  | nil => simp
  | cons head rest ih =>
    rw [List.foldl_cons, ih, get?_insertIfNew, Option.or_assoc, List.find?_cons]
    congr 1
    by_cases hk : head.1 = k
    · simp [hk]
    · simp [hk, Ne.symm hk]

end Answers

end Dict
end ResetMethods

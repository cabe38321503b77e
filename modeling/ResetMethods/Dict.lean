/-!
# ResetMethods.Dict

A dictionary with its entries in increasing order of the keys.

* `Dict.get?`, `Dict.contains`, `Dict.toList`, `Dict.keys`, `Dict.values` : the views.
* `Dict.insert`, `Dict.modify`, `Dict.erase` : each key keeps at most one entry, and the order of
  the entries is that of their keys whatever the order of the insertions.
-/

namespace ResetMethods

/-- Entries in strictly increasing order of their keys. -/
structure Dict (κ : Type) (ν : Type) [Ord κ] where
  entries : List (κ × ν)
  sorted : entries.Pairwise fun a b => compare a.1 b.1 = .lt

namespace Dict

variable {κ ν : Type} [Ord κ]

def empty : Dict κ ν := ⟨[], .nil⟩

instance : Inhabited (Dict κ ν) := ⟨empty⟩

/-- The entries with `k` bound to `v`, at the place its order gives it. -/
def insertEntry (k : κ) (v : ν) : List (κ × ν) → List (κ × ν)
  | [] => [(k, v)]
  | (k', v') :: rest =>
    match compare k k' with
    | .lt => (k, v) :: (k', v') :: rest
    | .eq => (k, v) :: rest
    | .gt => (k', v') :: insertEntry k v rest

theorem mem_insertEntry {k : κ} {v : ν} {l : List (κ × ν)} {e : κ × ν}
    (h : e ∈ insertEntry k v l) : e = (k, v) ∨ e ∈ l := by
  induction l with
  | nil => simpa [insertEntry] using h
  | cons head rest ih =>
    rw [insertEntry] at h
    split at h
    · simpa using h
    · rcases List.mem_cons.1 h with h | h
      · exact .inl h
      · exact .inr (List.mem_cons_of_mem _ h)
    · rcases List.mem_cons.1 h with h | h
      · exact .inr (h ▸ List.mem_cons_self)
      · exact (ih h).imp id (List.mem_cons_of_mem _)

section Ordered

variable [Std.TransOrd κ] [Std.LawfulEqOrd κ]

theorem sorted_insertEntry {k : κ} {v : ν} {l : List (κ × ν)}
    (h : l.Pairwise fun a b => compare a.1 b.1 = .lt) :
    (insertEntry k v l).Pairwise fun a b => compare a.1 b.1 = .lt := by
  induction l with
  | nil => simp [insertEntry]
  | cons head rest ih =>
    obtain ⟨hhead, hrest⟩ := List.pairwise_cons.1 h
    rw [insertEntry]
    split
    · next hlt =>
      refine List.pairwise_cons.2 ⟨fun e he => ?_, h⟩
      rcases List.mem_cons.1 he with rfl | he
      · exact hlt
      · exact Std.TransCmp.lt_trans hlt (hhead e he)
    · next heq =>
      obtain rfl := Std.LawfulEqCmp.eq_of_compare heq
      exact List.pairwise_cons.2 ⟨hhead, hrest⟩
    · next hgt =>
      refine List.pairwise_cons.2 ⟨fun e he => ?_, ih hrest⟩
      rcases mem_insertEntry he with rfl | he
      · exact Std.OrientedCmp.lt_of_gt hgt
      · exact hhead e he

/-- Binds `k` to `v`, in place of what `k` was bound to. -/
def insert (d : Dict κ ν) (k : κ) (v : ν) : Dict κ ν :=
  ⟨insertEntry k v d.entries, sorted_insertEntry d.sorted⟩

/-- The dictionary of a list of bindings; of two for one key the later stands. -/
def ofList (l : List (κ × ν)) : Dict κ ν :=
  l.foldl (fun d e => d.insert e.1 e.2) empty

end Ordered

def toList (d : Dict κ ν) : List (κ × ν) := d.entries

def keys (d : Dict κ ν) : List κ := d.entries.map (·.1)

def values (d : Dict κ ν) : List ν := d.entries.map (·.2)

def size (d : Dict κ ν) : Nat := d.entries.length

def isEmpty (d : Dict κ ν) : Bool := d.entries.isEmpty

variable [DecidableEq κ]

def get? (d : Dict κ ν) (k : κ) : Option ν := d.entries.lookup k

def contains (d : Dict κ ν) (k : κ) : Bool := (d.get? k).isSome

/-- Applies `f` to the value bound to `k`; the keys stay. -/
def modify (d : Dict κ ν) (k : κ) (f : ν → ν) : Dict κ ν :=
  ⟨d.entries.map fun e => if e.1 = k then (e.1, f e.2) else e, by
    refine List.pairwise_map.2 (d.sorted.imp fun {a b} h => ?_)
    split <;> split <;> exact h⟩

def erase (d : Dict κ ν) (k : κ) : Dict κ ν :=
  ⟨d.entries.filter fun e => e.1 ≠ k, d.sorted.filter _⟩

def insertIfNew [Std.TransOrd κ] [Std.LawfulEqOrd κ] (d : Dict κ ν) (k : κ) (v : ν) : Dict κ ν :=
  if d.contains k then d else d.insert k v

theorem lookup_insertEntry [Std.TransOrd κ] [Std.LawfulEqOrd κ] (k j : κ) (v : ν)
    (l : List (κ × ν)) : (insertEntry k v l).lookup j = if j = k then some v else l.lookup j := by
  induction l with
  | nil =>
    by_cases hj : j = k
    · simp [insertEntry, hj]
    · rw [insertEntry, List.lookup_cons, beq_eq_false_iff_ne.2 hj, if_neg hj]
  | cons head rest ih =>
    rw [insertEntry]
    split
    · by_cases hj : j = k
      · simp [hj]
      · rw [List.lookup_cons, beq_eq_false_iff_ne.2 hj, if_neg hj]
    · next heq =>
      have hk : k = head.1 := Std.LawfulEqCmp.eq_of_compare heq
      by_cases hj : j = k
      · simp [hj]
      · rw [List.lookup_cons, List.lookup_cons, beq_eq_false_iff_ne.2 hj, if_neg hj,
          beq_eq_false_iff_ne.2 (hk ▸ hj)]
    · next hgt =>
      by_cases hj : j = head.1
      · have hk : j ≠ k := by
          rintro rfl
          have heq : compare j head.1 = .eq := hj ▸ Std.ReflCmp.compare_self
          rw [heq] at hgt
          cases hgt
        rw [List.lookup_cons, List.lookup_cons, beq_iff_eq.2 hj, if_neg hk]
      · rw [List.lookup_cons, List.lookup_cons, beq_eq_false_iff_ne.2 hj, ih]

@[simp] theorem get?_empty (k : κ) : (empty : Dict κ ν).get? k = none := rfl

/-- An insertion changes the value of its key only. -/
theorem get?_insert [Std.TransOrd κ] [Std.LawfulEqOrd κ] (d : Dict κ ν) (k j : κ) (v : ν) :
    (d.insert k v).get? j = if j = k then some v else d.get? j :=
  lookup_insertEntry k j v d.entries

end Dict
end ResetMethods

import Mathlib.Data.List.Nodup
import Mathlib.Data.List.Perm.Subperm
import ResetMethods.Imports.Viewpoint

/-!
# ResetMethods.Proofs.Imports.Bindings

What binding aliases keeps and what it adds.

* `Text.fresh_spec`: the name found is the first of its family that is not taken.
* `AliasTable.bindEach`: the calls of one file in order.
* `AliasTable.Distinct`: no two bindings share an alias or a path. Tables without bindings are like
  that, and `bind` keeps it, so a binding is found by its path and by its alias.
* `bind_cases`: what a call does. Bindings stay, and the package asked for has one in the end.
* `Viewpoint.bindAll_eq`: the packages that text is written for are bound by such calls.
-/

namespace ResetMethods

/-! ## Fresh names -/

namespace Text

theorem candidate_injective (base : String) : Function.Injective (candidate base) := by
  have hpos : ∀ k, 0 < k → candidate base k = base ++ toString k := by
    intro k hk
    rw [candidate, if_neg (by omega)]
  have hne : ∀ k, 0 < k → candidate base k ≠ base := by
    intro k hk h
    rw [hpos k hk, ← String.toList_inj, String.toList_append, List.append_right_eq_self,
      Nat.toString_eq_repr, Nat.toList_repr] at h
    exact Nat.toDigits_ne_nil h
  have hzero : candidate base 0 = base := if_pos rfl
  intro i j h
  rcases Nat.eq_zero_or_pos i with rfl | hi
  · rcases Nat.eq_zero_or_pos j with rfl | hj
    · rfl
    · exact absurd (h.symm.trans hzero) (hne j hj)
  · rcases Nat.eq_zero_or_pos j with rfl | hj
    · exact absurd (h.trans hzero) (hne i hi)
    · rw [hpos i hi, hpos j hj, ← String.toList_inj, String.toList_append, String.toList_append,
        List.append_cancel_left_eq, Nat.toString_eq_repr, Nat.toString_eq_repr, Nat.toList_repr,
        Nat.toList_repr] at h
      -- the digits read back
      have hread := congrArg (Nat.ofDigitChars 10 · 0) h
      simpa only [Nat.ofDigitChars_ten_toDigits] using hread

/-- One more candidate than names are taken: one of them is free. -/
theorem exists_free (base : String) (taken : List String) :
    ∃ k ≤ taken.length, candidate base k ∉ taken := by
  by_contra h
  push Not at h
  have hsub : (List.range (taken.length + 1)).map (candidate base) ⊆ taken := by
    intro name hname
    obtain ⟨k, hk, rfl⟩ := List.mem_map.1 hname
    rw [List.mem_range] at hk
    exact h k (by omega)
  have hnodup := List.Nodup.map (candidate_injective base) (List.nodup_range (n := taken.length + 1))
  have hle := (hnodup.subperm hsub).length_le
  rw [List.length_map, List.length_range] at hle
  omega

theorem fresh_spec (base : String) (taken : List String) :
    ∃ k, fresh base taken = candidate base k ∧ candidate base k ∉ taken ∧
      ∀ j < k, candidate base j ∈ taken := by
  obtain ⟨free, hle, hfree⟩ := exists_free base taken
  let p : Nat → Bool := fun k => !taken.contains (candidate base k)
  have hsome : ((List.range (taken.length + 1)).find? p).isSome = true := by
    rw [List.find?_isSome]
    exact ⟨free, List.mem_range.2 (by omega), by simpa [p] using hfree⟩
  obtain ⟨k, hk⟩ := Option.isSome_iff_exists.1 hsome
  have hfresh : fresh base taken = candidate base k := by
    have hcomp : ((fun name => !taken.contains name) ∘ candidate base) = p := rfl
    rw [fresh, List.find?_map, hcomp, hk]
    rfl
  obtain ⟨hpk, -, hbefore⟩ := List.find?_range_eq_some.1 hk
  refine ⟨k, hfresh, by simpa [p] using hpk, fun j hj => ?_⟩
  simpa [p] using hbefore j hj

theorem fresh_not_mem (base : String) (taken : List String) : fresh base taken ∉ taken := by
  obtain ⟨k, hk, hfree, -⟩ := fresh_spec base taken
  rw [hk]
  exact hfree

end Text

/-! ## Tables -/

namespace AliasTable

/-- The table after some calls; the flag of a call tells that the name of the package is known. -/
def bindEach (t : AliasTable) (calls : List (PackageRef × Bool)) : AliasTable :=
  calls.foldl (fun t call => t.bind call.1 call.2) t

/-- No two bindings share an alias or a path. -/
structure Distinct (t : AliasTable) : Prop where
  aliases : (t.bindings.map (·.aliasName)).Nodup
  paths : (t.bindings.map (·.path)).Nodup

variable {t : AliasTable} {package : PackageRef} {known : Bool}

theorem alias?_eq_none : t.alias? package.path = none ↔ ∀ b ∈ t.bindings, b.path ≠ package.path := by
  simp [alias?]

/-- A call either finds the path bound or adds a binding for it. -/
theorem bind_cases (t : AliasTable) (package : PackageRef) (known : Bool) :
    (t.bind package known = t ∧ ∃ b ∈ t.bindings, b.path = package.path) ∨
      (t.bind package known).reserved = t.reserved ∧
      (t.bind package known).bindings =
        t.bindings ++ [⟨Text.fresh package.name t.taken, package.path, known⟩] ∧
      ∀ b ∈ t.bindings, b.path ≠ package.path := by
  unfold bind
  cases h : t.alias? package.path with
  | some aliasName =>
    obtain ⟨b, hb, -⟩ := Option.map_eq_some_iff.1 h
    have hpath := List.find?_some hb
    exact .inl ⟨rfl, b, List.mem_of_find?_eq_some hb, by simpa using hpath⟩
  | none => exact .inr ⟨rfl, rfl, alias?_eq_none.1 h⟩

/-- What is true of all bindings stays true if it is of a new one. -/
theorem forall_mem_bind {P : AliasBinding → Prop} (h : ∀ b ∈ t.bindings, P b)
    (hnew : P ⟨Text.fresh package.name t.taken, package.path, known⟩) :
    ∀ b ∈ (t.bind package known).bindings, P b := by
  intro b hb
  obtain ⟨hsame, -⟩ | ⟨-, hbindings, -⟩ := bind_cases t package known
  · rw [hsame] at hb
    exact h b hb
  · rw [hbindings] at hb
    rcases List.mem_append.1 hb with hb | hb
    · exact h b hb
    · rwa [List.mem_singleton.1 hb]

theorem bindings_prefix_bind (t : AliasTable) (package : PackageRef) (known : Bool) :
    t.bindings <+: (t.bind package known).bindings := by
  obtain ⟨h, -⟩ | ⟨-, h, -⟩ := bind_cases t package known
  · simp only [h, List.prefix_refl]
  · simp only [h, List.prefix_append]

theorem exists_of_bind (t : AliasTable) (package : PackageRef) (known : Bool) :
    ∃ b ∈ (t.bind package known).bindings, b.path = package.path := by
  obtain ⟨h, hb⟩ | ⟨-, h, -⟩ := bind_cases t package known
  · rw [h]
    exact hb
  · rw [h]
    exact ⟨_, List.mem_append_right _ List.mem_cons_self, rfl⟩

theorem distinct_withReserved (reserved : List String) : (withReserved reserved).Distinct :=
  ⟨List.nodup_nil, List.nodup_nil⟩

theorem Distinct.bind (h : t.Distinct) : (t.bind package known).Distinct := by
  obtain ⟨hsame, -⟩ | ⟨-, hnew, hpath⟩ := bind_cases t package known
  · rw [hsame]
    exact h
  · have hfree := Text.fresh_not_mem package.name t.taken
    rw [taken, List.mem_append, not_or] at hfree
    constructor
    · rw [hnew, List.map_append, List.map_singleton, ← List.concat_eq_append]
      exact List.Nodup.concat hfree.2 h.aliases
    · rw [hnew, List.map_append, List.map_singleton, ← List.concat_eq_append]
      exact List.Nodup.concat (by simpa using hpath) h.paths

/-- What every single call keeps, the calls of a file keep. -/
theorem bindEach_induction {P : AliasTable → Prop} {calls : List (PackageRef × Bool)}
    (hstart : P t) (hstep : ∀ t, ∀ call ∈ calls, P t → P (t.bind call.1 call.2)) :
    P (t.bindEach calls) := by
  induction calls generalizing t with
  | nil => exact hstart
  | cons call rest ih =>
    refine ih (hstep t call List.mem_cons_self hstart) fun t c hc => ?_
    exact hstep t c (List.mem_cons_of_mem _ hc)

theorem Distinct.bindEach (h : t.Distinct) (calls : List (PackageRef × Bool)) :
    (t.bindEach calls).Distinct :=
  bindEach_induction h fun _ _ _ h => h.bind

theorem bindings_prefix_bindEach (t : AliasTable) (calls : List (PackageRef × Bool)) :
    t.bindings <+: (t.bindEach calls).bindings := by
  refine bindEach_induction (P := fun u => t.bindings <+: u.bindings) (List.prefix_refl _) ?_
  intro u call _ h
  exact h.trans (bindings_prefix_bind u call.1 call.2)

/-- Where no two bindings share a key, a search for the key of one of them finds it. -/
theorem find?_eq_of_nodup {key : AliasBinding → String} {bs : List AliasBinding} {b : AliasBinding}
    (h : (bs.map key).Nodup) (hb : b ∈ bs) : bs.find? (key · == key b) = some b := by
  cases hf : bs.find? (key · == key b) with
  | none =>
    rw [List.find?_eq_none] at hf
    exact absurd (beq_self_eq_true (key b)) (hf b hb)
  | some c =>
    have hkey : key c = key b := by simpa using List.find?_some hf
    rw [List.inj_on_of_nodup_map h (List.mem_of_find?_eq_some hf) hb hkey]

theorem Distinct.alias?_eq (h : t.Distinct) {b : AliasBinding} (hb : b ∈ t.bindings) :
    t.alias? b.path = some b.aliasName := by
  rw [alias?, find?_eq_of_nodup h.paths hb, Option.map_some]

theorem Distinct.path?_eq (h : t.Distinct) {b : AliasBinding} (hb : b ∈ t.bindings) :
    t.path? b.aliasName = some b.path := by
  rw [path?, find?_eq_of_nodup h.aliases hb, Option.map_some]

end AliasTable

/-! ## The packages of a file -/

namespace Viewpoint

/-- The calls that bind some packages: none for the local one. -/
def calls (v : Viewpoint) (packages : List PackageRef) : List (PackageRef × Bool) :=
  (packages.filter (·.path != v.localPath)).map fun p => (p, v.knowsName p)

theorem bindAll_eq (v : Viewpoint) (t : AliasTable) (packages : List PackageRef) :
    v.bindAll t packages = t.bindEach (v.calls packages) := by
  induction packages generalizing t with
  | nil => rfl
  | cons package rest ih =>
    have hcons : v.bindAll t (package :: rest) = v.bindAll (v.bind t package) rest := rfl
    rw [hcons, ih]
    by_cases hlocal : package.path = v.localPath
    · simp [bind, calls, hlocal]
    · simp [bind, calls, hlocal, AliasTable.bindEach]

end Viewpoint

end ResetMethods

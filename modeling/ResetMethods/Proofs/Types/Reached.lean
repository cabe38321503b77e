import Mathlib.Data.List.Perm.Subperm
import ResetMethods.Proofs.Types.Walk

/-!
# ResetMethods.Proofs.Types.Reached

Chains of right-hand sides, one declaration a step.

* `Leads`: the right-hand sides of some declarations of a kind lead from one type to another.
* `Leads.exists_rest`: chains from one type run together until one of them ends.
* `underlyingWithin_eq_some_iff`, `unaliasWithin_eq_some_iff`: where the walks arrive, and how many
  types they have to look at for that.
* `walks_agree`: what the three walks of a table say of one type.
* `Leads.count_lt`: a chain that ends has no more steps than there are declarations on it.
* `underlying_eq_rhs`, `unalias_eq_rhs`: on a chain with few declarations the walks say the same of
  an alias and of its right-hand side.
-/

namespace ResetMethods

/-- The type is no reference to a declared one. -/
def Ty.IsUnnamed (ty : Ty) : Prop := ∀ n, ty ≠ .named n

namespace TypeTable

/-- The right-hand sides of `count` declarations of a kind lead from one type to the other. -/
inductive Leads (t : TypeTable) (kind : Declaration → Prop) : Nat → Ty → Ty → Prop where
  | refl (ty : Ty) : Leads t kind 0 ty ty
  | step {n : Named Ty} {d : Declaration} {count : Nat} {ty : Ty} :
      t.lookup n = some d → kind d → Leads t kind count d.rhs ty →
      Leads t kind (count + 1) (.named n) ty

/-- No declaration of the kind leads on from the type. -/
def Ends (t : TypeTable) (kind : Declaration → Prop) (ty : Ty) : Prop :=
  ∀ n d, ty = .named n → t.lookup n = some d → ¬kind d

/-- Chains through declarations of all kinds. -/
abbrev Reaches (t : TypeTable) : Nat → Ty → Ty → Prop := t.Leads fun _ => True

/-- The chain from the type comes back to a type that it has passed. -/
def IsCyclic (t : TypeTable) (ty : Ty) : Prop :=
  ∃ a b u, t.Reaches a ty u ∧ 0 < b ∧ t.Reaches b u u

/-- The chain from the type comes to a name without a declaration. -/
def LeavesTable (t : TypeTable) (ty : Ty) : Prop :=
  ∃ count n, t.Reaches count ty (.named n) ∧ t.lookup n = none

variable {t : TypeTable} {kind : Declaration → Prop} {ty u v : Ty} {a b count : Nat}

theorem ends_of_isUnnamed (h : u.IsUnnamed) : t.Ends kind u :=
  fun n _ hu => absurd hu (h n)

/-! ## Chains -/

namespace Leads

theorem trans (h : t.Leads kind a ty u) (h' : t.Leads kind b u v) :
    t.Leads kind (a + b) ty v := by
  induction h with
  | refl => rwa [Nat.zero_add]
  | step hd hkind _ ih =>
    rw [Nat.add_right_comm]
    exact .step hd hkind (ih h')

theorem eq_zero_of_ends (h : t.Leads kind count ty u) (hty : t.Ends kind ty) :
    count = 0 ∧ u = ty := by
  cases h with
  | refl => exact ⟨rfl, rfl⟩
  | step hd hkind _ => exact absurd hkind (hty _ _ rfl hd)

/-- A chain that ends goes on from wherever another one from the same type has come to. -/
theorem exists_rest (h' : t.Leads kind b ty v) (h : t.Leads kind a ty u) (hu : t.Ends kind u) :
    ∃ rest, a = b + rest ∧ t.Leads kind rest v u := by
  induction h' generalizing a with
  | refl => exact ⟨a, (Nat.zero_add a).symm, h⟩
  | step hd hkind _ ih =>
    cases h with
    | refl => exact absurd hkind (hu _ _ rfl hd)
    | step hd' hkind' h =>
      rw [hd] at hd'
      cases hd'
      obtain ⟨rest, rfl, hrest⟩ := ih h
      exact ⟨rest, Nat.add_right_comm _ _ _, hrest⟩

/-- No chain that ends comes back to where it starts. -/
theorem eq_zero_of_cycle (hc : t.Leads kind b ty ty) (h : t.Leads kind a ty u)
    (hu : t.Ends kind u) : b = 0 := by
  obtain ⟨c, hac, hc⟩ := hc.exists_rest h hu
  obtain ⟨e, hae, he⟩ := hc.exists_rest h hu
  have he := (he.eq_zero_of_ends hu).1
  omega

end Leads

/-! ## Where the walks arrive -/

/-- The walk to the underlying type arrives at the unnamed type that it reaches through fewer
declarations than it looks at types. -/
theorem underlyingWithin_eq_some_iff {fuel : Nat} : t.underlyingWithin fuel ty = some u ↔
    u.IsUnnamed ∧ ∃ count < fuel, t.Reaches count ty u := by
  induction fuel generalizing ty with
  | zero => simp [underlyingWithin]
  | succ fuel ih =>
    cases ty with
    | named n =>
      rw [underlyingWithin]
      constructor
      · intro h
        cases hd : t.lookup n with
        | none => rw [hd] at h; cases h
        | some d =>
          rw [hd] at h
          obtain ⟨hu, count, hcount, hreach⟩ := ih.1 h
          exact ⟨hu, count + 1, by omega, .step hd trivial hreach⟩
      · rintro ⟨hu, count, hcount, hreach⟩
        cases hreach with
        | refl => exact absurd rfl (hu n)
        | step hd _ hreach =>
          rw [hd]
          exact ih.2 ⟨hu, _, by omega, hreach⟩
    | _ =>
      constructor
      · intro h
        cases h
        refine ⟨?_, 0, by omega, .refl _⟩
        intro n hn
        cases hn
      · rintro ⟨-, count, -, hreach⟩
        cases hreach
        rfl

/-- The walk along aliases arrives at the type behind the last of them, as long as these are fewer
than the types it looks at. -/
theorem unaliasWithin_eq_some_iff {fuel : Nat} : t.unaliasWithin fuel ty = some u ↔
    t.Ends (·.isAlias = true) u ∧ ∃ count < fuel, t.Leads (·.isAlias = true) count ty u := by
  induction fuel generalizing ty with
  | zero => simp [unaliasWithin]
  | succ fuel ih =>
    cases ty with
    | named n =>
      rw [unaliasWithin]
      constructor
      · intro h
        cases hd : t.lookup n with
        | none =>
          rw [hd] at h
          cases h
          refine ⟨?_, 0, by omega, .refl _⟩
          intro m d hm hd'
          cases hm
          rw [hd] at hd'
          cases hd'
        | some d =>
          rw [hd] at h
          cases ha : d.isAlias with
          | true =>
            simp only [ha, if_true] at h
            obtain ⟨hu, count, hcount, hleads⟩ := ih.1 h
            exact ⟨hu, count + 1, by omega, .step hd ha hleads⟩
          | false =>
            simp only [ha] at h
            cases h
            refine ⟨?_, 0, by omega, .refl _⟩
            intro m e hm he
            cases hm
            rw [hd] at he
            cases he
            simp [ha]
      · rintro ⟨hu, count, hcount, hleads⟩
        cases hleads with
        | refl =>
          cases hd : t.lookup n with
          | none => rfl
          | some d => simp [hu n d rfl hd]
        | step hd ha hleads =>
          simp only [hd, ha, if_true]
          exact ih.2 ⟨hu, _, by omega, hleads⟩
    | _ =>
      constructor
      · intro h
        cases h
        refine ⟨?_, 0, by omega, .refl _⟩
        intro n d hn
        cases hn
      · rintro ⟨-, count, -, hleads⟩
        cases hleads
        rfl

theorem underlying_eq_some_iff :
    t.underlying ty = some u ↔ u.IsUnnamed ∧ ∃ count < chainLimit, t.Reaches count ty u :=
  underlyingWithin_eq_some_iff

theorem underlying_eq_none_of_isCyclic (h : t.IsCyclic ty) : t.underlying ty = none := by
  obtain ⟨a, b, v, hv, hb, hcycle⟩ := h
  refine Option.eq_none_iff_forall_ne_some.2 fun u hu => ?_
  obtain ⟨hu, count, -, hreach⟩ := underlying_eq_some_iff.1 hu
  obtain ⟨rest, -, hrest⟩ := hv.exists_rest hreach (ends_of_isUnnamed hu)
  have := hcycle.eq_zero_of_cycle hrest (ends_of_isUnnamed hu)
  omega

theorem underlying_eq_none_of_leavesTable (h : t.LeavesTable ty) : t.underlying ty = none := by
  obtain ⟨a, n, hn, hnone⟩ := h
  refine Option.eq_none_iff_forall_ne_some.2 fun u hu => ?_
  obtain ⟨hu, count, -, hreach⟩ := underlying_eq_some_iff.1 hu
  obtain ⟨rest, -, hrest⟩ := hn.exists_rest hreach (ends_of_isUnnamed hu)
  have hends : t.Ends (fun _ => True) (.named n) := by
    intro m d hm hd
    cases hm
    rw [hnone] at hd
    cases hd
  exact hu n (hrest.eq_zero_of_ends hends).2

/-- The underlying type is the unnamed type that is reached through at most 63 declarations; a chain
that comes back or leaves the table has none. Where there is an underlying type, the aliases end
too, and what is behind them has the same one. No walk along aliases ends at an alias, so no
declaration behind a type is one. -/
theorem walks_agree (t : TypeTable) (ty : Ty) :
    (∀ u, t.underlying ty = some u ↔ u.IsUnnamed ∧ ∃ count ≤ 63, t.Reaches count ty u) ∧
      (t.IsCyclic ty ∨ t.LeavesTable ty → t.underlying ty = none) ∧
      (∀ u, t.underlying ty = some u → ∃ v, t.unalias ty = some v ∧ t.underlying v = some u) ∧
      (∀ n d, t.unalias ty = some (.named n) → t.lookup n = some d → d.isAlias = false) ∧
      ∀ d, t.declaration ty = some d → d.isAlias = false := by
  refine ⟨fun u => ?_, ?_, fun u hu => ?_, fun n d => isAlias_of_unaliasWithin, fun d hd => ?_⟩
  · rw [underlying_eq_some_iff]
    simp only [chainLimit, Nat.lt_succ_iff]
  · rintro (h | h)
    · exact underlying_eq_none_of_isCyclic h
    · exact underlying_eq_none_of_leavesTable h
  · obtain ⟨v, hv⟩ := exists_unaliasWithin hu
    exact ⟨v, hv, underlyingWithin_unaliasWithin hv hu⟩
  · obtain ⟨n, hn, hd⟩ := exists_unalias_of_declaration hd
    exact isAlias_of_unaliasWithin hn hd

/-! ## Chains with few declarations -/

/-- A declaration of the kind with that key is on the chain from the type. -/
def Passes (t : TypeTable) (kind : Declaration → Prop) (ty : Ty) (k : TypeKey) : Prop :=
  ∃ count n d, t.Leads kind count ty (.named n) ∧ t.lookup n = some d ∧ kind d ∧ n.key = k

/-- The chain of right-hand sides from the type has fewer than `limit` different declarations on
it, whether it ends or not. -/
def PassesFewer (t : TypeTable) (limit : Nat) (ty : Ty) : Prop :=
  ∃ keys : List TypeKey, keys.length < limit ∧ ∀ k, t.Passes (fun _ => True) ty k → k ∈ keys

theorem Leads.reaches (h : t.Leads kind count ty u) : t.Reaches count ty u := by
  induction h with
  | refl ty => exact .refl ty
  | step hd _ _ ih => exact .step hd trivial ih

theorem Passes.any {k : TypeKey} (h : t.Passes kind ty k) : t.Passes (fun _ => True) ty k := by
  obtain ⟨count, n, d, hleads, hd, -, hk⟩ := h
  exact ⟨count, n, d, hleads.reaches, hd, trivial, hk⟩

/-- The declarations on a chain that ends are all different: the same one twice makes a cycle. -/
theorem Leads.exists_keys (h : t.Leads kind count ty u) (hu : t.Ends kind u) :
    ∃ keys : List TypeKey, keys.length = count ∧ keys.Nodup ∧ ∀ k ∈ keys, t.Passes kind ty k := by
  induction h with
  | refl => exact ⟨[], rfl, .nil, fun k hk => absurd hk List.not_mem_nil⟩
  | @step n d count ty hd hkind hrest ih =>
    obtain ⟨keys, hlength, hnodup, hkeys⟩ := ih hu
    refine ⟨n.key :: keys, by rw [List.length_cons, hlength], List.nodup_cons.2 ⟨?_, hnodup⟩, ?_⟩
    · intro hmem
      obtain ⟨a, m, e, hm, he, -, hkey⟩ := hkeys _ hmem
      have hsame : t.lookup m = t.lookup n := by rw [lookup, lookup, hkey]
      rw [hsame, hd] at he
      cases he
      have hcycle := hm.trans (.step (hsame.trans hd) hkind (.refl _))
      have := hcycle.eq_zero_of_cycle hrest hu
      omega
    · intro k hk
      rcases List.mem_cons.1 hk with rfl | hk
      · exact ⟨0, n, d, .refl _, hd, hkind, rfl⟩
      · obtain ⟨a, m, e, hm, he, hekind, hkey⟩ := hkeys k hk
        exact ⟨a + 1, m, e, .step hd hkind hm, he, hekind, hkey⟩

theorem Leads.count_lt {limit : Nat} (h : t.Leads kind count ty u) (hu : t.Ends kind u)
    (hfew : t.PassesFewer limit ty) : count < limit := by
  obtain ⟨keys, hlength, hnodup, hkeys⟩ := h.exists_keys hu
  obtain ⟨all, hlimit, hall⟩ := hfew
  have hsub : keys ⊆ all := fun k hk => hall k (hkeys k hk).any
  have := (hnodup.subperm hsub).length_le
  omega

section Alias

variable {limit : Nat} {n : Named Ty} {d : Declaration}

/-- The walk from a declaration takes one step more than the walk from its right-hand side. On a
chain with few declarations neither comes to its limit. -/
theorem underlying_eq_rhs (hd : t.lookup n = some d) (hfew : t.PassesFewer limit d.rhs)
    (hlimit : limit < chainLimit) : t.underlying (.named n) = t.underlying d.rhs := by
  refine Option.ext fun u => ?_
  rw [underlying_eq_some_iff, underlying_eq_some_iff]
  constructor
  · rintro ⟨hu, count, hcount, hreach⟩
    cases hreach with
    | refl => exact absurd rfl (hu n)
    | step hd' _ hreach =>
      rw [hd] at hd'
      cases hd'
      exact ⟨hu, _, by omega, hreach⟩
  · rintro ⟨hu, count, -, hreach⟩
    have := hreach.count_lt (ends_of_isUnnamed hu) hfew
    exact ⟨hu, count + 1, by omega, .step hd trivial hreach⟩

theorem unalias_eq_rhs (hd : t.lookup n = some d) (ha : d.isAlias = true)
    (hfew : t.PassesFewer limit d.rhs) (hlimit : limit < chainLimit) :
    t.unalias (.named n) = t.unalias d.rhs := by
  refine Option.ext fun u => ?_
  rw [unalias, unalias, unaliasWithin_eq_some_iff, unaliasWithin_eq_some_iff]
  constructor
  · rintro ⟨hu, count, hcount, hleads⟩
    cases hleads with
    | refl => exact absurd ha (hu n d rfl hd)
    | step hd' _ hleads =>
      rw [hd] at hd'
      cases hd'
      exact ⟨hu, _, by omega, hleads⟩
  · rintro ⟨hu, count, -, hleads⟩
    have := hleads.count_lt hu hfew
    exact ⟨hu, count + 1, by omega, .step hd ha hleads⟩

end Alias

end TypeTable
end ResetMethods

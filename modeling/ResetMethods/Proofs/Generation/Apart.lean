import ResetMethods.Proofs.Generation.Targets
import ResetMethods.Proofs.Imports.Bindings
import ResetMethods.Proofs.Printing.References

/-!
# ResetMethods.Proofs.Generation.Apart

Surroundings that differ in the declarations of one package only.

* `Ty.Avoids`: no name in a type belongs to the package at a path.
* `Surroundings.AgreeApart`: two tables hold the same declarations of all other packages, and those
  avoid the path; the same types of other packages are pending.
* `underlyingWithin_eq`, `hasResetWithin_eq`, `resetWithin_eq`: from a type that avoids the path, no
  walk, no search for methods and no statement can tell the two apart.
* `ResetMethod.avoids_of_of?`: a method prints no name of the package at the path.
* `LoadedPackage.generated_eq`: so the file of another package is the same.
-/

namespace ResetMethods

/-- No name of the package at the path stands in the type. -/
def Ty.Avoids (path : String) (ty : Ty) : Prop := ∀ p name, ty.Refers p name → p.path ≠ path

namespace Ty.Avoids

variable {path : String} {ty u : Ty}

theorem of_mentions (h : ty.Avoids path) (hu : ty.Mentions u) : u.Avoids path :=
  fun p name hrefers => h p name (.of_mentions hu hrefers)

theorem of_mem_children (h : ty.Avoids path) (hu : u ∈ ty.children) : u.Avoids path :=
  h.of_mentions (.single hu)

/-- A name that avoids the path stands under another package; predeclared ones under the empty
path. -/
theorem key_package_ne {n : Named Ty} (h : (Ty.named n).Avoids path) (hpath : path ≠ "") :
    n.key.package ≠ path := by
  obtain ⟨package, name, args⟩ := n
  cases package with
  | none => exact hpath.symm
  | some package => exact h package name ⟨_, .refl _, rfl⟩

theorem of_mem_packages (h : ty.Avoids path) {p : PackageRef} (hp : p ∈ ty.packages) :
    p.path ≠ path := by
  have hwrites := Ty.writes (fun _ => "") ty
  rw [← hwrites.packages] at hp
  obtain ⟨qualifier, name, hmem⟩ := Piece.exists_of_mem_packages hp
  exact h p name (Ty.mem_pieces_iff.1 hmem).1

end Ty.Avoids

/-! ## Tables -/

/-- The tables hold the same declarations of the packages at other paths, each under its key, and
those avoid the path. -/
structure TypeTable.AgreeApart (path : String) (t t' : TypeTable) : Prop where
  path_ne : path ≠ ""
  get? : ∀ k, k.package ≠ path → t.get? k = t'.get? k
  key : ∀ k d, t.get? k = some d → d.key = k
  avoids : ∀ k d, k.package ≠ path → t.get? k = some d → d.rhs.Avoids path

namespace TypeTable.AgreeApart

variable {path : String} {t t' : TypeTable} {ty u : Ty} {fuel : Nat}

theorem lookup_eq (h : t.AgreeApart path t') {n : Named Ty} (hn : (Ty.named n).Avoids path) :
    t.lookup n = t'.lookup n :=
  h.get? _ (hn.key_package_ne h.path_ne)

theorem avoids_rhs (h : t.AgreeApart path t') {n : Named Ty} (hn : (Ty.named n).Avoids path)
    {d : Declaration} (hd : t.lookup n = some d) : d.rhs.Avoids path :=
  h.avoids _ d (hn.key_package_ne h.path_ne) hd

theorem underlyingWithin_eq (h : t.AgreeApart path t') (hty : ty.Avoids path) (fuel : Nat) :
    t.underlyingWithin fuel ty = t'.underlyingWithin fuel ty := by
  -- a right-hand side avoids the path again, so the walk never comes to the package there
  induction fuel generalizing ty with
  | zero => rfl
  | succ fuel ih =>
    cases ty with
    | named n =>
      simp only [underlyingWithin, ← h.lookup_eq hty]
      cases hd : t.lookup n with
      | none => rfl
      | some d => exact ih (h.avoids_rhs hty hd)
    | _ => rfl

theorem unaliasWithin_eq (h : t.AgreeApart path t') (hty : ty.Avoids path) (fuel : Nat) :
    t.unaliasWithin fuel ty = t'.unaliasWithin fuel ty := by
  induction fuel generalizing ty with
  | zero => rfl
  | succ fuel ih =>
    cases ty with
    | named n =>
      simp only [unaliasWithin, ← h.lookup_eq hty]
      cases hd : t.lookup n with
      | none => rfl
      | some d => simp only [ih (h.avoids_rhs hty hd)]
    | _ => rfl

theorem avoids_underlyingWithin (h : t.AgreeApart path t') (hty : ty.Avoids path)
    (hu : t.underlyingWithin fuel ty = some u) : u.Avoids path := by
  induction fuel generalizing ty with
  | zero => cases hu
  | succ fuel ih =>
    cases ty with
    | named n =>
      simp only [underlyingWithin] at hu
      cases hd : t.lookup n with
      | none => rw [hd] at hu; cases hu
      | some d =>
        rw [hd] at hu
        exact ih (h.avoids_rhs hty hd) hu
    | _ => exact Option.some.inj hu ▸ hty

theorem avoids_unaliasWithin (h : t.AgreeApart path t') (hty : ty.Avoids path)
    (hu : t.unaliasWithin fuel ty = some u) : u.Avoids path := by
  induction fuel generalizing ty with
  | zero => cases hu
  | succ fuel ih =>
    cases ty with
    | named n =>
      simp only [unaliasWithin] at hu
      cases hd : t.lookup n with
      | none =>
        rw [hd] at hu
        exact Option.some.inj hu ▸ hty
      | some d =>
        simp only [hd] at hu
        split at hu
        · exact ih (h.avoids_rhs hty hd) hu
        · exact Option.some.inj hu ▸ hty
    | _ => exact Option.some.inj hu ▸ hty

theorem underlying_eq (h : t.AgreeApart path t') (hty : ty.Avoids path) :
    t.underlying ty = t'.underlying ty := h.underlyingWithin_eq hty chainLimit

theorem unalias_eq (h : t.AgreeApart path t') (hty : ty.Avoids path) :
    t.unalias ty = t'.unalias ty := h.unaliasWithin_eq hty chainLimit

theorem avoids_underlying (h : t.AgreeApart path t') (hty : ty.Avoids path)
    (hu : t.underlying ty = some u) : u.Avoids path := h.avoids_underlyingWithin hty hu

theorem avoids_unalias (h : t.AgreeApart path t') (hty : ty.Avoids path)
    (hu : t.unalias ty = some u) : u.Avoids path := h.avoids_unaliasWithin hty hu

theorem declaration_eq (h : t.AgreeApart path t') (hty : ty.Avoids path) :
    t.declaration ty = t'.declaration ty := by
  rw [declaration, declaration, ← h.unalias_eq hty]
  cases hn : t.unalias ty with
  | none => rfl
  | some u =>
    cases u with
    | named n => exact h.lookup_eq (h.avoids_unalias hty hn)
    | _ => rfl

/-- The declaration behind a type that avoids the path belongs to another package. -/
theorem declaration_apart (h : t.AgreeApart path t') (hty : ty.Avoids path) {d : Declaration}
    (hd : t.declaration ty = some d) : d.key.package ≠ path ∧ d.rhs.Avoids path := by
  rw [declaration] at hd
  split at hd
  · rename_i n hn
    have havoids := h.avoids_unalias hty hn
    rw [h.key _ d hd]
    exact ⟨havoids.key_package_ne h.path_ne, h.avoids_rhs havoids hd⟩
  · cases hd

end TypeTable.AgreeApart

theorem TypeTable.hasPackage_iff {t : TypeTable} {path : String} :
    t.hasPackage path = true ↔ ∃ k d, k.package = path ∧ t.get? k = some d := by
  simp only [hasPackage, Dict.keys, List.any_eq_true, List.mem_map, beq_iff_eq]
  constructor
  · rintro ⟨k, ⟨⟨k', d⟩, he, rfl⟩, hk⟩
    exact ⟨k', d, hk, Dict.mem_entries_iff.1 he⟩
  · rintro ⟨k, d, hk, hd⟩
    exact ⟨k, ⟨(k, d), Dict.mem_entries_iff.2 hd, rfl⟩, hk⟩

theorem TypeTable.AgreeApart.hasPackage_eq {path package : String} {t t' : TypeTable}
    (h : t.AgreeApart path t') (hp : package ≠ path) :
    t.hasPackage package = t'.hasPackage package := by
  rw [Bool.eq_iff_iff, hasPackage_iff, hasPackage_iff]
  refine exists_congr fun k => exists_congr fun d => and_congr_right fun hk => ?_
  rw [h.get? k (hk ▸ hp)]

/-! ## Method sets -/

/-- The tables agree apart from the path, and so do the types that are pending. -/
structure Surroundings.AgreeApart (path : String) (s s' : Surroundings) : Prop where
  table : s.table.AgreeApart path s'.table
  pending : ∀ k, k.package ≠ path → (k ∈ s.pending ↔ k ∈ s'.pending)

namespace Surroundings.AgreeApart

variable {path : String} {s s' : Surroundings} {ty u : Ty}

theorem asksResetWithin_eq (h : s.AgreeApart path s') (fuel : Nat) {methods : List (MethodSpec Ty)}
    {embeds : List Ty} (hembeds : ∀ e ∈ embeds, e.Avoids path) :
    s.asksResetWithin fuel methods embeds = s'.asksResetWithin fuel methods embeds := by
  induction fuel generalizing methods embeds with
  | zero => rfl
  | succ fuel ih =>
    rw [asksResetWithin, asksResetWithin]
    congr 1
    rw [Bool.eq_iff_iff, List.any_eq_true, List.any_eq_true]
    refine exists_congr fun e => and_congr_right fun he => ?_
    rw [← h.table.underlying_eq (hembeds e he)]
    cases hu : s.table.underlying e with
    | none => rfl
    | some shape =>
      cases shape with
      | interface methods' embeds' =>
        have hshape := h.table.avoids_underlying (hembeds e he) hu
        have hinner : ∀ e' ∈ embeds', e'.Avoids path := fun e' he' =>
          hshape.of_mem_children (List.mem_append_left _ he')
        simp only [ih hinner]
      | _ => rfl

theorem promotedFrom_eq (h : s.AgreeApart path s') (hty : ty.Avoids path) :
    s.promotedFrom ty = s'.promotedFrom ty := by
  rw [promotedFrom, promotedFrom, h.table.unalias_eq hty]

theorem avoids_promotedFrom (h : s.AgreeApart path s') (hty : ty.Avoids path)
    (hu : s.promotedFrom ty = some u) : u.Avoids path := by
  unfold promotedFrom at hu
  split at hu
  · rename_i elem hn
    cases hu
    exact (h.table.avoids_unalias hty hn).of_mem_children List.mem_cons_self
  · exact h.table.avoids_unalias hty hu

theorem hasResetWithin_eq (h : s.AgreeApart path s') (fuel : Nat) (hty : ty.Avoids path) :
    s.hasResetWithin fuel ty = s'.hasResetWithin fuel ty := by
  induction fuel generalizing ty with
  | zero => rfl
  | succ fuel ih =>
    rw [hasResetWithin, hasResetWithin, ← h.table.declaration_eq hty]
    cases hd : s.table.declaration ty with
    | none => rfl
    | some d =>
      obtain ⟨hkey, hrhs⟩ := h.table.declaration_apart hty hd
      have hpending : s.pending.contains d.key = s'.pending.contains d.key := by
        rw [Bool.eq_iff_iff, List.contains_iff_mem, List.contains_iff_mem, h.pending d.key hkey]
      simp only [hpending, ← h.table.underlying_eq hrhs]
      cases hu : s.table.underlying d.rhs with
      | none => rfl
      | some shape =>
        cases shape with
        | struct fields =>
          simp only
          refine if_congr .rfl rfl (if_congr .rfl rfl (if_congr .rfl rfl (if_congr .rfl rfl ?_)))
          -- what is left is to count the embedded fields that provide the method
          congr 2
          refine List.filter_congr fun field hfield => ?_
          have htype : field.type.Avoids path :=
            (h.table.avoids_underlying hrhs hu).of_mem_children (List.mem_map_of_mem hfield)
          rw [← h.promotedFrom_eq htype]
          cases hp : s.promotedFrom field.type with
          | none => rfl
          | some inner =>
            have hinner := h.avoids_promotedFrom htype hp
            simp only [← h.table.underlying_eq hinner, ih hinner]
            cases hi : s.table.underlying inner with
            | none => rfl
            | some shape =>
              cases shape with
              | interface methods embeds =>
                have hembeds : ∀ e ∈ embeds, e.Avoids path := fun e he =>
                  (h.table.avoids_underlying hinner hi).of_mem_children (List.mem_append_left _ he)
                simp only [h.asksResetWithin_eq fuel hembeds]
              | _ => rfl
        | _ => rfl

theorem hasReset_eq (h : s.AgreeApart path s') (hty : ty.Avoids path) :
    s.hasReset ty = s'.hasReset ty := h.hasResetWithin_eq (depthLimit + 1) hty

/-! ## Methods -/

theorem isInterface_eq (h : s.AgreeApart path s') (hty : ty.Avoids path) :
    s.isInterface ty = s'.isInterface ty := by
  rw [isInterface, isInterface, h.table.underlying_eq hty]

theorem isDefined_eq (h : s.AgreeApart path s') (hty : ty.Avoids path) :
    s.isDefined ty = s'.isDefined ty := by
  rw [isDefined, isDefined, h.table.unalias_eq hty]

theorem resetUnresolved_eq (h : s.AgreeApart path s') (e : Operand) (hty : ty.Avoids path) :
    s.resetUnresolved e ty = s'.resetUnresolved e ty := by
  rw [resetUnresolved, resetUnresolved, h.table.unalias_eq hty]

theorem resetWithin_eq (h : s.AgreeApart path s') (fuel : Nat) (e : Operand) (hty : ty.Avoids path) :
    s.resetWithin fuel e ty = s'.resetWithin fuel e ty := by
  induction fuel generalizing e ty with
  | zero =>
    rw [resetWithin, resetWithin, ← h.table.underlying_eq hty, h.resetUnresolved_eq e hty]
  | succ fuel ih =>
    rw [resetWithin, resetWithin, ← h.table.underlying_eq hty, h.resetUnresolved_eq e hty]
    cases hu : s.table.underlying ty with
    | none => rfl
    | some shape =>
      have hshape := h.table.avoids_underlying hty hu
      cases shape with
      | pointer elem =>
        have helem : elem.Avoids path := hshape.of_mem_children List.mem_cons_self
        simp only [h.isInterface_eq helem, h.hasReset_eq helem, h.isDefined_eq hty, ih _ helem]
      | struct fields => simp only [h.hasReset_eq hty]
      | interface methods embeds =>
        have hembeds : ∀ e ∈ embeds, e.Avoids path := fun e he =>
          hshape.of_mem_children (List.mem_append_left _ he)
        have hasks : s.asksReset methods embeds = s'.asksReset methods embeds :=
          h.asksResetWithin_eq _ hembeds
        simp only [hasks]
      | _ => rfl

theorem avoids_resetUnresolved (h : s.AgreeApart path s') {e : Operand} (hty : ty.Avoids path)
    (hu : u ∈ (s.resetUnresolved e ty).types) : u.Avoids path := by
  unfold resetUnresolved at hu
  split at hu
  · rename_i n hn
    exact List.mem_singleton.1 hu ▸ h.table.avoids_unalias hty hn
  · cases hu

/-- The statement for an operand prints no name of the package at the path. -/
theorem avoids_resetWithin (h : s.AgreeApart path s') {fuel : Nat} {e : Operand}
    (hty : ty.Avoids path) (hu : u ∈ (s.resetWithin fuel e ty).types) : u.Avoids path := by
  induction fuel generalizing e ty with
  | zero =>
    rw [resetWithin] at hu
    cases hshape : s.table.underlying ty with
    | none =>
      rw [hshape] at hu
      exact h.avoids_resetUnresolved hty hu
    | some shape =>
      rw [hshape] at hu
      exact List.mem_singleton.1 hu ▸ hty
  | succ fuel ih =>
    rw [resetWithin] at hu
    cases hshape : s.table.underlying ty with
    | none =>
      rw [hshape] at hu
      exact h.avoids_resetUnresolved hty hu
    | some shape =>
      rw [hshape] at hu
      cases shape with
      | pointer elem =>
        simp only [Statement.types] at hu
        split at hu
        · cases hu
        · have helem : elem.Avoids path :=
            (h.table.avoids_underlying hty hshape).of_mem_children List.mem_cons_self
          exact ih helem hu
      | struct fields =>
        simp only at hu
        split at hu
        · cases hu
        · exact List.mem_singleton.1 hu ▸ hty
      | interface methods embeds =>
        simp only [Statement.types] at hu
        split at hu <;> cases hu
      | array length elem => exact List.mem_singleton.1 hu ▸ hty
      | typeParam name => exact List.mem_singleton.1 hu ▸ hty
      | named n => exact List.mem_singleton.1 hu ▸ hty
      | _ => cases hu

end Surroundings.AgreeApart

namespace ResetMethod

variable {path receiver : String} {s s' : Surroundings} {n : Named Ty}

theorem of?_eq (h : s.AgreeApart path s') (hn : n.key.package ≠ path) :
    of? s receiver n = of? s' receiver n := by
  have hlookup : s.table.lookup n = s'.table.lookup n := h.table.get? _ hn
  unfold of?
  rw [← hlookup]
  cases hd : s.table.lookup n with
  | none => rfl
  | some d =>
    have hrhs := h.table.avoids _ d hn hd
    simp only [← h.table.underlying_eq hrhs]
    -- only a struct gets a method, and its fields avoid the path
    cases hu : s.table.underlying d.rhs with
    | none => rfl
    | some shape =>
      cases shape with
      | struct fields =>
        refine if_congr .rfl rfl (congrArg some ?_)
        congr 1
        refine List.map_congr_left fun f hf => ?_
        have htype : f.type.Avoids path := (h.table.avoids_underlying hrhs hu).of_mem_children
          (List.mem_map_of_mem (List.mem_of_mem_filter hf))
        exact h.resetWithin_eq _ _ htype
      | _ => rfl

theorem avoids_of_of? (h : s.AgreeApart path s') (hn : n.key.package ≠ path) {m : ResetMethod}
    (hm : of? s receiver n = some m) {p : PackageRef} (hp : p ∈ m.packages) : p.path ≠ path := by
  obtain ⟨d, fields, hd, -, hu, rfl⟩ := of?_eq_some_iff.1 hm
  obtain ⟨st, hst, hp⟩ := List.mem_flatMap.1 hp
  obtain ⟨f, hf, rfl⟩ := List.mem_map.1 hst
  obtain ⟨ty, hty, hp⟩ := List.mem_flatMap.1 hp
  have hrhs := h.table.avoids _ d hn hd
  have htype : f.type.Avoids path := (h.table.avoids_underlying hrhs hu).of_mem_children
    (List.mem_map_of_mem (List.mem_of_mem_filter hf))
  exact (h.avoids_resetWithin htype hty).of_mem_packages hp

end ResetMethod

/-! ## Files -/

theorem Viewpoint.bindAll_eq_of_agreeApart {path host : String} {t t' : TypeTable}
    (h : t.AgreeApart path t') {packages : List PackageRef} (hp : ∀ p ∈ packages, p.path ≠ path)
    (aliases : AliasTable) : (⟨t, host⟩ : Viewpoint).bindAll aliases packages =
      (⟨t', host⟩ : Viewpoint).bindAll aliases packages := by
  rw [bindAll_eq, bindAll_eq]
  refine congrArg aliases.bindEach (List.map_congr_left fun p hmem => ?_)
  have hpath := hp p (List.mem_of_mem_filter hmem)
  simp only [knowsName, h.hasPackage_eq hpath]

namespace LoadedPackage

variable {path : String} {s s' : Surroundings} {package : LoadedPackage}

/-- The file of another package is the same, if the names that denote types in it are names of other
packages. -/
theorem generated_eq (h : s.AgreeApart path s')
    (hnames : ∀ ident n, package.definitions.type? ident = some n → n.key.package ≠ path) :
    package.generated s = package.generated s' := by
  -- the aliases follow from the methods, so these come first
  have hmethods : package.methods s = package.methods s' := by
    unfold methods outcomes
    congr 2
    funext target
    unfold outcome
    cases hn : package.definitions.type? target.name with
    | none => rfl
    | some n => simp only [ResetMethod.of?_eq h (hnames _ n hn)]
  have hpackages : ∀ p ∈ (package.methods s).flatMap (·.packages), p.path ≠ path := by
    intro p hp
    obtain ⟨m, hm, hp⟩ := List.mem_flatMap.1 hp
    obtain ⟨target, -, n, hn, hof⟩ := mem_methods_iff.1 hm
    exact ResetMethod.avoids_of_of? h (hnames _ n hn) hof hp
  have haliases : package.aliases s = package.aliases s' := by
    rw [aliases, aliases, ← hmethods]
    exact Viewpoint.bindAll_eq_of_agreeApart h.table hpackages _
  rw [generated, generated, ← haliases, ← hmethods]
  rfl

end LoadedPackage

end ResetMethods

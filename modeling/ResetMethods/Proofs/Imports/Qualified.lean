import ResetMethods.Generation
import ResetMethods.Proofs.Imports.Bindings
import ResetMethods.Proofs.Imports.Pieces
import ResetMethods.Proofs.MethodSet.Pending

/-!
# ResetMethods.Proofs.Imports.Qualified

The imports of a file against the qualifiers in its methods.

* `Piece.Uses`: an alias stands before a name of the package that it is bound to.
* `AliasTable.Resolves`: names of the host are bare, and every other qualifier is an alias that the
  table binds to the package of the name.
* `Viewpoint.uses`, `Viewpoint.resolves`: both, for pieces whose packages are bound.
* `synthesize_imports`: after any calls no alias is unused, and no qualifier of any method is
  missing from the table.
* `LoadedPackage.generated_imports`: so it is with the methods of a generated file.

An alias is bound to print a name of its package, and `Ty.writes` says that the name is printed.
Later calls keep the binding.
-/

namespace ResetMethods

/-! ## Pieces against a table -/

namespace Piece

/-- The alias stands as a qualifier before a name of its package. -/
def Uses (ps : List Piece) (b : AliasBinding) : Prop :=
  ∃ package name, .reference package (b.aliasName ++ ".") name ∈ ps ∧ package.path = b.path

end Piece

namespace AliasTable

/-- Each name is one of the host and bare, or behind an alias that the table binds to its package. -/
def Resolves (t : AliasTable) (host : String) (ps : List Piece) : Prop :=
  ∀ package qualifier name, .reference package qualifier name ∈ ps →
    (qualifier = "" ∧ package.path = host) ∨
      ∃ aliasName, qualifier = aliasName ++ "." ∧ t.path? aliasName = some package.path

variable {t u : AliasTable}

theorem mem_bindEach {calls : List (PackageRef × Bool)} {b : AliasBinding}
    (hb : b ∈ (t.bindEach calls).bindings) : b ∈ t.bindings ∨ ∃ call ∈ calls, call.1.path = b.path := by
  refine bindEach_induction
    (P := fun u => b ∈ u.bindings → b ∈ t.bindings ∨ ∃ call ∈ calls, call.1.path = b.path) .inl ?_ hb
  intro u call hcall ih hb
  obtain ⟨hsame, -⟩ | ⟨-, hnew, -⟩ := bind_cases u call.1 call.2
  · exact ih (hsame ▸ hb)
  · rw [hnew] at hb
    rcases List.mem_append.1 hb with hb | hb
    · exact ih hb
    · exact .inr ⟨call, hcall, by rw [List.mem_singleton.1 hb]⟩

theorem exists_of_bindEach {calls : List (PackageRef × Bool)} {call : PackageRef × Bool}
    (hcall : call ∈ calls) : ∃ b ∈ (t.bindEach calls).bindings, b.path = call.1.path := by
  induction calls generalizing t with
  | nil => cases hcall
  | cons first rest ih =>
    rcases List.mem_cons.1 hcall with rfl | hcall
    · obtain ⟨b, hb, hpath⟩ := exists_of_bind t call.1 call.2
      exact ⟨b, (bindings_prefix_bindEach _ rest).subset hb, hpath⟩
    · exact ih hcall

/-- What a table resolves, a longer one resolves to the same paths. -/
theorem Resolves.mono {host : String} {ps : List Piece} (hps : t.Resolves host ps)
    (h : t.bindings <+: u.bindings) (hu : u.Distinct) : u.Resolves host ps := by
  intro package qualifier name hm
  rcases hps package qualifier name hm with hlocal | ⟨aliasName, hq, hpath⟩
  · exact .inl hlocal
  · obtain ⟨b, hfind, hb⟩ := Option.map_eq_some_iff.1 hpath
    have halias : b.aliasName = aliasName := by simpa using List.find?_some hfind
    have hmem := h.subset (List.mem_of_find?_eq_some hfind)
    refine .inr ⟨aliasName, hq, ?_⟩
    rw [← halias, hu.path?_eq hmem, hb]

end AliasTable

namespace Viewpoint

variable {v : Viewpoint} {t : AliasTable} {packages : List PackageRef}

theorem mem_calls {p : PackageRef} {known : Bool} :
    (p, known) ∈ v.calls packages ↔
      p ∈ packages ∧ p.path ≠ v.localPath ∧ v.knowsName p = known := by
  simp [calls, and_assoc]

theorem distinct_bindAll (h : t.Distinct) (packages : List PackageRef) :
    (v.bindAll t packages).Distinct := by
  rw [bindAll_eq]
  exact h.bindEach _

theorem bindings_prefix_bindAll (v : Viewpoint) (t : AliasTable) (packages : List PackageRef) :
    t.bindings <+: (v.bindAll t packages).bindings := by
  rw [bindAll_eq]
  exact AliasTable.bindings_prefix_bindEach t _

theorem mem_bindAll {b : AliasBinding} (hb : b ∈ (v.bindAll t packages).bindings) :
    b ∈ t.bindings ∨ ∃ p ∈ packages, p.path ≠ v.localPath ∧ p.path = b.path := by
  rw [bindAll_eq] at hb
  rcases AliasTable.mem_bindEach hb with hb | ⟨⟨p, known⟩, hcall, hpath⟩
  · exact .inl hb
  · obtain ⟨hp, hlocal, -⟩ := mem_calls.1 hcall
    exact .inr ⟨p, hp, hlocal, hpath⟩

theorem exists_of_bindAll {p : PackageRef} (hp : p ∈ packages) (hlocal : p.path ≠ v.localPath) :
    ∃ b ∈ (v.bindAll t packages).bindings, b.path = p.path := by
  rw [bindAll_eq]
  exact AliasTable.exists_of_bindEach (mem_calls.2 ⟨hp, hlocal, rfl⟩)

theorem qualifier_eq (h : t.Distinct) {b : AliasBinding} (hb : b ∈ t.bindings) {p : PackageRef}
    (hp : b.path = p.path) (hlocal : p.path ≠ v.localPath) :
    v.qualifier t p = b.aliasName ++ "." := by
  rw [qualifier, if_neg (by simpa using hlocal), ← hp, h.alias?_eq hb, Option.getD_some]

variable {ps : List Piece} {text : String}

/-- Pieces that are written when their packages have been bound: an alias bound for them is used. -/
theorem uses (h : t.Distinct) (hps : Writes (v.qualifier t) ps text packages) {b : AliasBinding}
    (hb : b ∈ t.bindings) (hp : ∃ p ∈ packages, p.path ≠ v.localPath ∧ p.path = b.path) :
    Piece.Uses ps b := by
  obtain ⟨p, hp, hlocal, hpath⟩ := hp
  rw [← hps.packages] at hp
  obtain ⟨qualifier, name, hm⟩ := Piece.exists_of_mem_packages hp
  have hq : qualifier = b.aliasName ++ "." := by
    rw [hps.qualifiers p qualifier name hm]
    exact qualifier_eq h hb hpath.symm hlocal
  exact ⟨p, name, hq ▸ hm, hpath⟩

/-- Pieces that are written when their packages have been bound are resolved. -/
theorem resolves (h : t.Distinct) (hps : Writes (v.qualifier t) ps text packages)
    (hbound : ∀ p ∈ packages, p.path ≠ v.localPath → ∃ b ∈ t.bindings, b.path = p.path) :
    t.Resolves v.localPath ps := by
  intro package qualifier name hm
  have hq := hps.qualifiers package qualifier name hm
  have hp := Piece.mem_packages hm
  rw [hps.packages] at hp
  by_cases hlocal : package.path = v.localPath
  · refine .inl ⟨?_, hlocal⟩
    rw [hq, Viewpoint.qualifier, if_pos (by simpa using hlocal)]
  · obtain ⟨b, hb, hpath⟩ := hbound package hp hlocal
    refine .inr ⟨b.aliasName, ?_, ?_⟩
    · rw [hq]
      exact qualifier_eq h hb hpath hlocal
    · rw [h.path?_eq hb, hpath]

end Viewpoint

/-! ## The calls for some targets -/

/-- The aliases after all calls. -/
def lastAliases (aliases : AliasTable) : List (Option String × AliasTable) → AliasTable
  | [] => aliases
  | (_, later) :: rest => lastAliases later rest

/-- The call returned a method of one of the targets, in these pieces. -/
def Returned (s : Surroundings) (host receiver : String) (targets : List (Named Ty))
    (call : Option String × AliasTable) (ps : List Piece) : Prop :=
  ∃ target ∈ targets, ∃ m, ResetMethod.of? s receiver target = some m ∧
    ps = m.pieces ((⟨s.table, host⟩ : Viewpoint).qualifier call.2) ∧ call.1 = some (Piece.texts ps)

section Synthesize

variable {s : Surroundings} {host receiver : String} {t : AliasTable} {targets : List (Named Ty)}

theorem Returned.later {target : Named Ty} {call : Option String × AliasTable} {ps : List Piece}
    (h : Returned s host receiver targets call ps) :
    Returned s host receiver (target :: targets) call ps := by
  obtain ⟨found, hfound, hm⟩ := h
  exact ⟨found, List.mem_cons_of_mem _ hfound, hm⟩

theorem lastAliases_spec (s : Surroundings) (host receiver : String) (targets : List (Named Ty))
    (h : t.Distinct) :
    (lastAliases t (synthesize s host receiver t targets)).Distinct ∧
      t.bindings <+: (lastAliases t (synthesize s host receiver t targets)).bindings := by
  induction targets generalizing t with
  | nil => exact ⟨h, List.prefix_refl _⟩
  | cons target rest ih =>
    obtain ⟨hd, hp⟩ := ih (Viewpoint.distinct_bindAll h _)
    exact ⟨hd, (Viewpoint.bindings_prefix_bindAll _ t _).trans hp⟩

/-- What a method is written as once its packages are bound. -/
def ResetMethod.bound (view : Viewpoint) (t : AliasTable) (m : ResetMethod) : List Piece :=
  m.pieces (view.qualifier (view.bindAll t m.packages))

theorem synthesize_cons_of_some {target : Named Ty} {m : ResetMethod}
    (hm : ResetMethod.of? s receiver target = some m) :
    let later := (⟨s.table, host⟩ : Viewpoint).bindAll t m.packages
    synthesize s host receiver t (target :: targets) =
      (some (Piece.texts (m.bound ⟨s.table, host⟩ t)), later) ::
        synthesize s host receiver later targets := by
  have htext := (m.writes ((⟨s.table, host⟩ : Viewpoint).qualifier
    ((⟨s.table, host⟩ : Viewpoint).bindAll t m.packages))).text
  simp only [synthesize, hm, Option.map_some, Option.getD_some, ResetMethod.bound, htext]
  rfl

theorem synthesize_cons_of_none {target : Named Ty}
    (hm : ResetMethod.of? s receiver target = none) :
    synthesize s host receiver t (target :: targets) =
      (none, t) :: synthesize s host receiver t targets := by
  simp only [synthesize, hm, Option.map_none, Option.getD_none]
  rfl

theorem returned_bound {target : Named Ty} {m : ResetMethod}
    (hm : ResetMethod.of? s receiver target = some m) :
    Returned s host receiver (target :: targets)
      (some (Piece.texts (m.bound ⟨s.table, host⟩ t)),
        (⟨s.table, host⟩ : Viewpoint).bindAll t m.packages) (m.bound ⟨s.table, host⟩ t) :=
  ⟨target, List.mem_cons_self, m, hm, rfl, rfl⟩

/-- An alias in the last table was there before the calls, or a method uses it. -/
theorem synthesize_uses (h : t.Distinct) {b : AliasBinding}
    (hb : b ∈ (lastAliases t (synthesize s host receiver t targets)).bindings) :
    b ∈ t.bindings ∨ ∃ call ∈ synthesize s host receiver t targets, ∃ ps,
      Returned s host receiver targets call ps ∧ Piece.Uses ps b := by
  induction targets generalizing t with
  | nil => exact .inl hb
  | cons target rest ih =>
    cases hm : ResetMethod.of? s receiver target with
    | none =>
      rw [synthesize_cons_of_none hm] at hb ⊢
      rcases ih h hb with hold | ⟨call, hcall, ps, hps, huses⟩
      · exact .inl hold
      · exact .inr ⟨call, List.mem_cons_of_mem _ hcall, ps, hps.later, huses⟩
    | some m =>
      rw [synthesize_cons_of_some hm] at hb ⊢
      have hd := Viewpoint.distinct_bindAll (v := ⟨s.table, host⟩) h m.packages
      rcases ih hd hb with hlater | ⟨call, hcall, ps, hps, huses⟩
      -- what this call has bound, its own method uses
      · rcases Viewpoint.mem_bindAll hlater with hold | hnew
        · exact .inl hold
        · have huses := Viewpoint.uses hd (m.writes _) hlater hnew
          exact .inr ⟨_, List.mem_cons_self, _, returned_bound hm, huses⟩
      · exact .inr ⟨call, List.mem_cons_of_mem _ hcall, ps, hps.later, huses⟩

theorem synthesize_resolves (h : t.Distinct) {call : Option String × AliasTable}
    (hcall : call ∈ synthesize s host receiver t targets) (hsome : call.1 ≠ none) :
    ∃ ps, Returned s host receiver targets call ps ∧
      (lastAliases t (synthesize s host receiver t targets)).Resolves host ps := by
  induction targets generalizing t with
  | nil => cases hcall
  | cons target rest ih =>
    cases hm : ResetMethod.of? s receiver target with
    | none =>
      rw [synthesize_cons_of_none hm] at hcall ⊢
      rcases List.mem_cons.1 hcall with rfl | hcall
      · exact absurd rfl hsome
      · obtain ⟨ps, hps, hresolves⟩ := ih h hcall
        exact ⟨ps, hps.later, hresolves⟩
    | some m =>
      rw [synthesize_cons_of_some hm] at hcall ⊢
      have hd := Viewpoint.distinct_bindAll (v := ⟨s.table, host⟩) h m.packages
      rcases List.mem_cons.1 hcall with rfl | hcall
      -- the bindings of this call are still there in the end
      · have hresolves := Viewpoint.resolves hd (m.writes _) fun p hp hlocal =>
          Viewpoint.exists_of_bindAll hp hlocal
        obtain ⟨hlast, hprefix⟩ := lastAliases_spec s host receiver rest hd
        exact ⟨_, returned_bound hm, hresolves.mono hprefix hlast⟩
      · obtain ⟨ps, hps, hresolves⟩ := ih hd hcall
        exact ⟨ps, hps.later, hresolves⟩

end Synthesize

/-- From a table without bindings, and for any targets in any order: each alias that is bound in the
end stands before a name of its package in a method that was returned, and each qualifier in a method
that was returned is an alias that is bound in the end to the package of the name. -/
theorem synthesize_imports (s : Surroundings) (host receiver : String) (reserved : List String)
    (targets : List (Named Ty)) :
    let start := AliasTable.withReserved reserved
    let calls := synthesize s host receiver start targets
    (∀ b ∈ (lastAliases start calls).bindings, ∃ call ∈ calls, ∃ ps,
      Returned s host receiver targets call ps ∧ Piece.Uses ps b) ∧
    ∀ call ∈ calls, call.1 ≠ none → ∃ ps, Returned s host receiver targets call ps ∧
      (lastAliases start calls).Resolves host ps := by
  have hstart := AliasTable.distinct_withReserved reserved
  refine ⟨fun b hb => ?_, fun call hcall hsome => synthesize_resolves hstart hcall hsome⟩
  rcases synthesize_uses hstart hb with hnone | huses
  · cases hnone
  · exact huses

/-! ## A generated file -/

/-- The methods of a generated file use every alias of its import block, and no qualifier in them is
missing from it. -/
theorem LoadedPackage.generated_imports (package : LoadedPackage) (s : Surroundings) :
    let q := (package.viewpoint s.table).qualifier (package.aliases s)
    (package.generated s).methods = (package.methods s).map (fun m => Piece.texts (m.pieces q)) ∧
    (∀ b ∈ (package.aliases s).bindings, ∃ m ∈ package.methods s, Piece.Uses (m.pieces q) b) ∧
    ∀ m ∈ package.methods s, (package.aliases s).Resolves package.source.path (m.pieces q) := by
  intro q
  have hd : (package.aliases s).Distinct :=
    Viewpoint.distinct_bindAll (AliasTable.distinct_withReserved _) _
  refine ⟨?_, fun b hb => ?_, fun m hm => ?_⟩
  · refine List.map_congr_left fun m _ => ?_
    exact (m.writes q).text.symm
  · rcases Viewpoint.mem_bindAll hb with hnone | ⟨p, hp, hbound⟩
    · cases hnone
    · obtain ⟨m, hm, hp⟩ := List.mem_flatMap.1 hp
      exact ⟨m, hm, Viewpoint.uses hd (m.writes q) hb ⟨p, hp, hbound⟩⟩
  · refine Viewpoint.resolves hd (m.writes q) fun p hp hlocal => ?_
    exact Viewpoint.exists_of_bindAll (List.mem_flatMap.2 ⟨m, hm, hp⟩) hlocal

end ResetMethods

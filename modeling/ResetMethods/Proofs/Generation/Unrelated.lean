import ResetMethods.Proofs.Generation.Apart
import ResetMethods.Proofs.Runs.Success
import ResetMethods.Proofs.Types.Scopes

/-!
# ResetMethods.Proofs.Generation.Unrelated

A package that is unrelated to the others of a load changes nothing for them.

* `IsUnrelatedTo.agreeApart`: the surroundings differ in the declarations of that package only.
* `IsUnrelatedTo.generated_eq`: so every other package is given the same file.
* `IsUnrelatedTo.outputs_eq`: with the package, a load has the same files and those of the package.
* `IsUnrelatedTo.same_files`: so a run writes the same files for all others, with or without it.
-/

namespace ResetMethods

/-- What a property filters out of the results for one element more, if that one has none. -/
theorem filter_filterMap_insert {α β : Type} {f f' : α → Option β} {p : β → Bool}
    {before after : List α} {a : α} (h : ∀ b ∈ before ++ after, f' b = f b)
    (ha : ∀ b, f' a = some b → p b = false) :
    ((before ++ a :: after).filterMap f').filter p = ((before ++ after).filterMap f).filter p := by
  have hbefore : before.filterMap f' = before.filterMap f :=
    List.filterMap_congr fun b hb => h b (List.mem_append_left _ hb)
  have hafter : after.filterMap f' = after.filterMap f :=
    List.filterMap_congr fun b hb => h b (List.mem_append_right _ hb)
  simp only [List.filterMap_append, List.filter_append, List.filterMap_cons, hbefore, hafter]
  cases hb : f' a with
  | none => rfl
  | some b => simp only [List.filter_cons_of_neg, ha b hb, Bool.false_eq_true, not_false_eq_true]

namespace SourcePackage.IsUnrelatedTo

variable {before after : List SourcePackage} {other source : SourcePackage}

theorem pending_iff {k : TypeKey} (hk : k.package ≠ other.path) :
    k ∈ (Load.ofSources (before ++ after)).surroundings.pending ↔
      k ∈ (Load.ofSources (before ++ other :: after)).surroundings.pending := by
  have hother : ∀ target : Target, (⟨other.path, target.name⟩ : TypeKey) ≠ k := by
    rintro target rfl
    exact hk rfl
  simp [Load.surroundings, Load.ofSources, pendingKeys, hother]

theorem agreeApart (h : other.IsUnrelatedTo (before ++ after)) :
    (Load.ofSources (before ++ after)).surroundings.AgreeApart other.path
      (Load.ofSources (before ++ other :: after)).surroundings where
  table :=
    { path_ne := h.path_ne
      get? := fun _ hk => h.get?_typeTable hk
      key := fun _ _ hd => key_of_typeTable hd
      avoids := fun _ _ _ hd _ _ hrefers => h.path_ne_of_refers hd hrefers }
  pending := fun _ hk => pending_iff hk

theorem generated_eq (h : other.IsUnrelatedTo (before ++ after)) (hs : source ∈ before ++ after) :
    source.loaded.generated (Load.ofSources (before ++ other :: after)).surroundings =
      source.loaded.generated (Load.ofSources (before ++ after)).surroundings := by
  refine (LoadedPackage.generated_eq h.agreeApart fun ident n hn => ?_).symm
  rw [type?_definitions hn]
  exact h.paths source hs

theorem output?_eq (h : other.IsUnrelatedTo (before ++ after)) (layout : ByteArray → ByteArray)
    (hs : source ∈ before ++ after) :
    source.output? layout (Load.ofSources (before ++ other :: after)).surroundings =
      source.output? layout (Load.ofSources (before ++ after)).surroundings := by
  simp only [output?, LoadedPackage.output, LoadedPackage.emission, Emission.file,
    h.generated_eq hs]

theorem outputs_eq (h : other.IsUnrelatedTo (before ++ after)) (layout : ByteArray → ByteArray) :
    ((Load.ofSources (before ++ other :: after)).outputs layout).filter
        (·.1.package ≠ other.path) = (Load.ofSources (before ++ after)).outputs layout := by
  rw [Load.outputs_ofSources, Load.outputs_ofSources,
    filter_filterMap_insert (fun source hs => h.output?_eq layout hs) fun output houtput =>
      decide_eq_false fun hne => hne (package_of_output? houtput)]
  refine List.filter_eq_self.2 fun output houtput => decide_eq_true ?_
  obtain ⟨source, hs, hsource⟩ := List.mem_filterMap.1 houtput
  rw [package_of_output? hsource]
  exact h.paths source hs

/-- A package that is unrelated to the others changes no file of theirs: each is generated as it is
without that package, and of two runs that succeed, one with the package and one without, both write
the same files for the others. -/
theorem same_files (h : other.IsUnrelatedTo (before ++ after)) :
    let load := Load.ofSources (before ++ after)
    let extended := Load.ofSources (before ++ other :: after)
    (∀ source ∈ before ++ after,
      source.loaded.generated extended.surroundings = source.loaded.generated load.surroundings) ∧
    ∀ {σ : Type} (strategies : Strategies σ) (layout : ByteArray → ByteArray),
      strategies.LaysOut layout → ∀ first second summary summary',
        (runLoad strategies extended first).result = .ok summary →
        (runLoad strategies load second).result = .ok summary' →
        ∃ outputs, (runLoad strategies extended first).Produces outputs ∧
          (runLoad strategies load second).Produces
            (outputs.filter (·.1.package ≠ other.path)) := by
  intro load extended
  refine ⟨fun source hs => h.generated_eq hs, ?_⟩
  intro σ strategies layout hlays first second summary summary' hextended hload
  refine ⟨extended.outputs layout, hlays.produces hextended, ?_⟩
  rw [h.outputs_eq layout]
  exact hlays.produces hload

end SourcePackage.IsUnrelatedTo

/-! ## A package that has the name of an imported one -/

namespace Namesake

def struct (name : String) (type : TypeExpr) : Decl :=
  .types ⟨some ⟨[directive]⟩, false, [⟨none, name, [], false, .struct [⟨["V"], type, none⟩], 4⟩]⟩

/-- A package that imports another one, which is not loaded. -/
def spool : SourcePackage :=
  ⟨"spool", "example.com/spool", "/spool", ["/spool/spool.go"],
    [⟨"/spool/spool.go", "spool", [⟨none, "example.com/ring"⟩],
      [struct "Spool" (.qualified "ring" "Buffer")]⟩]⟩

/-- A package of the same name as the imported one, with a type of the same name. -/
def ring : SourcePackage :=
  ⟨"ring", "example.com/other/ring", "/other/ring", ["/other/ring/ring.go"],
    [⟨"/other/ring/ring.go", "ring", [], [struct "Buffer" (.ident "int")]⟩]⟩

theorem isUnrelated : ring.IsUnrelatedTo ([] ++ [spool]) where
  path_ne := by decide
  paths := by decide
  imports := by decide

end Namesake

theorem SourcePackage.IsUnrelatedTo.same_files_namesake :
    Namesake.ring.IsUnrelatedTo ([] ++ [Namesake.spool]) ∧
      ∃ outputs,
        (runLoad .verbatim (.ofSources [Namesake.ring, Namesake.spool]) ()).Produces outputs ∧
          (runLoad .verbatim (.ofSources [Namesake.spool]) ()).Produces
            (outputs.filter (·.1.package ≠ "example.com/other/ring")) := by
  have hboth := Strategies.succeeds_verbatim.produces (.ofSources [Namesake.ring, Namesake.spool]) ()
  have hspool := Strategies.succeeds_verbatim.produces (.ofSources [Namesake.spool]) ()
  exact ⟨Namesake.isUnrelated, (same_files Namesake.isUnrelated).2 .verbatim id
    Strategies.succeeds_verbatim.laysOut () () _ _ hboth.result hspool.result⟩

end ResetMethods

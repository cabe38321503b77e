import ResetMethods.Proofs.Layout.Settled
import ResetMethods.Proofs.MethodSet.Pending
import ResetMethods.Proofs.Runs.Success
import ResetMethods.Proofs.Types.Scopes

/-!
# ResetMethods.Proofs.Generation.Order

The order of the packages of a load.

* `AlikeByPath`: two loads have the same packages at each path. So have loads of the same packages in
  another order, where no two packages have one path.
* `AlikeByPath.typeTable_eq`: such loads declare the same types.
* `AlikeByPath.generated_eq`: each package is given the same file in both.
* `run_reordered`: so a run writes the same files, in the order of the packages.
-/

namespace ResetMethods

open Text (closeBrace openBrace)

/-- The loads have the same packages at each path, in the same order. -/
def AlikeByPath (load load' : List SourcePackage) : Prop :=
  ∀ path, packagesAt load path = packagesAt load' path

theorem AlikeByPath.of_perm {load load' : List SourcePackage} (hpaths : (load.map (·.path)).Nodup)
    (hperm : load.Perm load') : AlikeByPath load load' := by
  intro path
  have hat : (packagesAt load path).Perm (packagesAt load' path) := hperm.filter _
  by_cases hnil : packagesAt load path = []
  · rw [hnil] at hat ⊢
    exact (List.nil_perm.1 hat).symm
  · obtain ⟨source, hsource⟩ := List.exists_mem_of_ne_nil _ hnil
    obtain ⟨hmem, rfl⟩ := mem_packagesAt.1 hsource
    rw [packagesAt_of_mem hpaths hmem] at hat ⊢
    exact List.singleton_perm.1 hat

namespace AlikeByPath

variable {load load' : List SourcePackage}

theorem mem_iff (h : AlikeByPath load load') {source : SourcePackage} :
    source ∈ load ↔ source ∈ load' := by
  have hat : source ∈ packagesAt load source.path ↔ source ∈ packagesAt load' source.path := by
    rw [h source.path]
  rwa [mem_packagesAt, mem_packagesAt, and_iff_left rfl, and_iff_left rfl] at hat

theorem seesAlike (h : AlikeByPath load load') (source : SourcePackage) :
    source.SeesAlike load load' where
  own := by rw [loadedAt_eq, loadedAt_eq, h]
  imports := fun _ _ _ _ => by rw [loadedAt_eq, loadedAt_eq, h]

theorem typeTable_eq (h : AlikeByPath load load') : typeTable load = typeTable load' :=
  Dict.ext_get? fun k => get?_typeTable_eq (h k.package) fun source _ => h.seesAlike source

theorem pending_iff (h : AlikeByPath load load') (k : TypeKey) :
    k ∈ (Load.ofSources load).surroundings.pending ↔
      k ∈ (Load.ofSources load').surroundings.pending := by
  have hmem : ∀ load : List SourcePackage, k ∈ (Load.ofSources load).surroundings.pending ↔
      ∃ source ∈ load, ∃ target ∈ source.loaded.targets, ⟨source.path, target.name⟩ = k := by
    intro load
    simp [Load.surroundings, Load.ofSources, pendingKeys, SourcePackage.loaded]
  simp only [hmem, h.mem_iff]

theorem of?_eq (h : AlikeByPath load load') (receiver : String) (n : Named Ty) :
    ResetMethod.of? (Load.ofSources load).surroundings receiver n =
      ResetMethod.of? (Load.ofSources load').surroundings receiver n := by
  rw [← ResetMethod.of?_settled, ← ResetMethod.of?_settled (Load.ofSources load').surroundings,
    Surroundings.settled_eq h.typeTable_eq h.pending_iff]

theorem generated_eq (h : AlikeByPath load load') (package : LoadedPackage) :
    package.generated (Load.ofSources load).surroundings =
      package.generated (Load.ofSources load').surroundings := by
  have htable : (Load.ofSources load).surroundings.table =
      (Load.ofSources load').surroundings.table := h.typeTable_eq
  have hmethods : package.methods (Load.ofSources load).surroundings =
      package.methods (Load.ofSources load').surroundings := by
    have houtcome : package.outcome (Load.ofSources load).surroundings =
        package.outcome (Load.ofSources load').surroundings := by
      funext target
      simp only [LoadedPackage.outcome, h.of?_eq]
    rw [LoadedPackage.methods, LoadedPackage.methods, LoadedPackage.outcomes,
      LoadedPackage.outcomes, houtcome]
  simp only [LoadedPackage.generated, LoadedPackage.aliases, hmethods, htable]

theorem output?_eq (h : AlikeByPath load load') (layout : ByteArray → ByteArray)
    (source : SourcePackage) :
    source.output? layout (Load.ofSources load).surroundings =
      source.output? layout (Load.ofSources load').surroundings := by
  simp only [SourcePackage.output?, LoadedPackage.output, LoadedPackage.emission, Emission.file,
    h.generated_eq]

theorem mem_emitted_iff (h : AlikeByPath load load') {package : LoadedPackage} :
    package ∈ (Load.ofSources load).emitted ↔ package ∈ (Load.ofSources load').emitted := by
  simp only [Load.emitted, Load.ofSources, List.mem_filter, List.mem_map, h.mem_iff]

end AlikeByPath

/-- The order of the packages does not matter to a run. Over the same packages in two orders both
runs succeed or both fail, and where they succeed each package gets the same file with the same
contents: what is written, and the entries of the summary, come in the order of the packages. -/
theorem run_reordered {σ : Type} {strategies : Strategies σ} (h : strategies.IsReliable)
    {sources sources' : List SourcePackage} (hpaths : (sources.map (·.path)).Nodup)
    (hperm : sources.Perm sources') (cwd root : String) (first second : σ) :
    let o := run (strategies.over sources) cwd root first
    let o' := run (strategies.over sources') cwd root second
    ((∃ summary, o.result = .ok summary) ↔ ∃ summary, o'.result = .ok summary) ∧
    ∀ summary, o.result = .ok summary →
      o.writes.Perm o'.writes ∧
      ∃ output : SourcePackage → Option (GeneratedFile × ByteArray),
        (∀ source file, output source = some file → file.1.package = source.path) ∧
        o.Produces (sources.filterMap output) ∧ o'.Produces (sources'.filterMap output) := by
  intro o o'
  have halike : AlikeByPath sources sources' := .of_perm hpaths hperm
  have hiff : (∃ summary, o.result = .ok summary) ↔ ∃ summary, o'.result = .ok summary := by
    refine (h.run_over_eq_ok_iff sources cwd root first).trans (Iff.trans ?_
      (h.run_over_eq_ok_iff sources' cwd root second).symm)
    simp only [halike.mem_emitted_iff, halike.generated_eq]
  refine ⟨hiff, fun summary hsummary => ?_⟩
  obtain ⟨summary', hsummary'⟩ := hiff.1 ⟨summary, hsummary⟩
  -- both runs have written the layouts of what their packages are given, which is the same
  have hlays := Strategies.laysOut_canonical h.format
  have hfirst := hlays.produces_over hsummary
  have hsecond := hlays.produces_over hsummary'
  simp only [← halike.output?_eq] at hsecond
  refine ⟨?_, _, fun source file => source.package_of_output?, hfirst, hsecond⟩
  rw [hfirst.writes, hsecond.writes]
  exact (hperm.filterMap _).map _

/-! ## Two packages of which one needs the other -/

namespace Reordered

def struct (name : String) (type : TypeExpr) : Decl :=
  .types ⟨some ⟨[directive]⟩, false, [⟨none, name, [], false, .struct [⟨["V"], type, none⟩], 4⟩]⟩

def ring : SourcePackage :=
  ⟨"ring", "example.com/ring", "/ring", ["/ring/ring.go"],
    [⟨"/ring/ring.go", "ring", [], [struct "Buffer" (.ident "int")]⟩]⟩

/-- A package whose method calls the one that is about to be generated for the other package. -/
def spool : SourcePackage :=
  ⟨"spool", "example.com/spool", "/spool", ["/spool/spool.go"],
    [⟨"/spool/spool.go", "spool", [⟨none, "example.com/ring"⟩],
      [struct "Spool" (.qualified "ring" "Buffer")]⟩]⟩

def load : Load := .ofSources [ring, spool]

theorem methods_ring : ring.loaded.methods load.surroundings =
    [⟨"obj", "Buffer", [.assign ⟨"obj", "V", 0⟩ (.zero .int)]⟩] := by rfl

theorem methods_spool : spool.loaded.methods load.surroundings =
    [⟨"obj", "Spool", [.call ⟨"obj", "V", 0⟩]⟩] := by rfl

/-- The file of a package without imports, whose one method has one statement. -/
def text (package type statement : String) : String :=
  banner ++ "\n\npackage " ++ package ++ "\n\nfunc (obj *" ++ type ++ ") Reset() " ++ openBrace ++ "\n" ++
    "\tif obj == nil " ++ openBrace ++ "\n\t\treturn\n\t" ++ closeBrace ++ "\n\n\t" ++
    statement ++ "\n" ++ closeBrace ++ "\n"

theorem text_ring : (ring.loaded.generated load.surroundings).text =
    text "ring" "Buffer" "obj.V = 0" := by
  have haliases : ring.loaded.aliases load.surroundings = ring.loaded.noAliases := by
    rw [LoadedPackage.aliases, methods_ring]
    rfl
  rw [LoadedPackage.generated, methods_ring, haliases]
  rfl

theorem text_spool : (spool.loaded.generated load.surroundings).text =
    text "spool" "Spool" "obj.V.Reset()" := by
  have haliases : spool.loaded.aliases load.surroundings = spool.loaded.noAliases := by
    rw [LoadedPackage.aliases, methods_spool]
    rfl
  rw [LoadedPackage.generated, methods_spool, haliases]
  rfl

theorem exists_summary :
    ∃ summary, (run (Strategies.canonical.over [ring, spool]) "/" "/" ()).result = .ok summary := by
  have hroot : Path.absolute "/" "/" = .ok "/" := by rfl
  have hring : Layout.canonical (text "ring" "Buffer" "obj.V = 0").toList =
      .ok (text "ring" "Buffer" "obj.V = 0").toList := by decide +kernel
  have hspool : Layout.canonical (text "spool" "Spool" "obj.V.Reset()").toList =
      .ok (text "spool" "Spool" "obj.V.Reset()").toList := by decide +kernel
  have hemitted : load.emitted = [ring.loaded, spool.loaded] := by rfl
  refine (Strategies.isReliable_canonical.run_over_eq_ok_iff [ring, spool] "/" "/" ()).2
    ⟨⟨_, hroot⟩, fun package hp => ?_⟩
  have hp : package ∈ load.emitted := hp
  rw [hemitted, List.mem_pair] at hp
  rcases hp with rfl | rfl
  · exact ⟨_, text_ring ▸ Layout.canonicalBytes_of_canonical hring⟩
  · exact ⟨_, text_spool ▸ Layout.canonicalBytes_of_canonical hspool⟩

end Reordered

theorem run_reordered_sample :
    Strategies.canonical.IsReliable ∧
      ([Reordered.ring, Reordered.spool].map (·.path)).Nodup ∧
      [Reordered.ring, Reordered.spool].Perm [Reordered.spool, Reordered.ring] ∧
      ∃ summary,
        (run (Strategies.canonical.over [Reordered.ring, Reordered.spool]) "/" "/" ()).result =
          .ok summary ∧
        ∃ output : SourcePackage → Option (GeneratedFile × ByteArray),
          (run (Strategies.canonical.over [Reordered.ring, Reordered.spool]) "/" "/" ()).Produces
            ([Reordered.ring, Reordered.spool].filterMap output) ∧
          (run (Strategies.canonical.over [Reordered.spool, Reordered.ring]) "/" "/" ()).Produces
            ([Reordered.spool, Reordered.ring].filterMap output) := by
  have hpaths : ([Reordered.ring, Reordered.spool].map (·.path)).Nodup := by decide
  have hperm : [Reordered.ring, Reordered.spool].Perm [Reordered.spool, Reordered.ring] := .swap _ _ _
  obtain ⟨summary, hok⟩ := Reordered.exists_summary
  obtain ⟨-, output, -, hfirst, hsecond⟩ :=
    (run_reordered Strategies.isReliable_canonical hpaths hperm "/" "/" () ()).2 summary hok
  exact ⟨Strategies.isReliable_canonical, hpaths, hperm, summary, hok, output, hfirst, hsecond⟩

end ResetMethods

import ResetMethods.Proofs.Loading.ImportPaths

/-!
# ResetMethods.Proofs.Loading.Governing

The module file that is found, and the one that governs a directory.

* `Nearest`: the longest front of a location for which there is something. `nearest_of_findSome?`: a
  search from the longest front to the shortest finds it.
* `Nearest.walk_iff`: what is nearest on the way back along a path is nearest on the way up from where
  the path leads, if it lies there at all.
* `findSome?_nearestManifest`, `nearest_nearestManifest`: the search for a module file is one along
  the components of the root.
* `IsDirectoryAt.findsGoverning_iff`: it finds the file that governs the root exactly if the directory
  that it ends in lies at or above the root. `IsDirectoryAt.followsModule_iff`: the import paths are
  right exactly if no `..` comes behind the directory of the module.
* `finds_governing_iff`: both, for the module and the packages of a load.
* `left_module_found`: a root that goes through the directory of a module and leaves it again.

A path is walked back segment by segment, and the directory before a `..` need not be above the one
where the path leads.
-/

namespace ResetMethods

open ResetMethods.Path (components walk)

/-! ## Searches -/

/-- The longest front of a list for which there is something, with what there is. -/
structure Nearest {α β : Type} (f : List α → Option β) (l g : List α) (b : β) : Prop where
  above : g <+: l
  here : f g = some b
  between : ∀ k, g <+: k → k <+: l → k ≠ g → f k = none

section Search

variable {α β : Type} {f : List α → Option β} {l g : List α} {a : α} {b : β}

theorem Nearest.self (h : f l = some b) : Nearest f l l b := by
  refine ⟨List.prefix_rfl, h, fun k hk hk' hne => absurd ?_ hne⟩
  exact hk'.eq_of_length_le hk.length_le

theorem Nearest.concat (h : Nearest f l g b) (hnone : f (l ++ [a]) = none) :
    Nearest f (l ++ [a]) g b := by
  refine ⟨h.above.trans (List.prefix_append l [a]), h.here, fun k hk hk' hne => ?_⟩
  rcases List.prefix_concat_iff.1 hk' with rfl | hk'
  · exact hnone
  · exact h.between k hk hk' hne

/-- A search through the fronts, the longest first. -/
theorem nearest_of_findSome? (f : List α → Option β) (l : List α) :
    match l.inits.reverse.findSome? fun k => (f k).map (k, ·) with
    | none => ∀ k, k <+: l → f k = none
    | some (g, b) => Nearest f l g b := by
  induction l using List.reverseRecOn with
  | nil =>
    have hinits : ([] : List α).inits.reverse = [[]] := rfl
    rw [hinits, List.findSome?_cons]
    cases hf : f [] with
    | some b => exact .self hf
    | none =>
      intro k hk
      rw [List.prefix_nil.1 hk, hf]
  | append_singleton l a ih =>
    have hinits : (l ++ [a]).inits.reverse = (l ++ [a]) :: l.inits.reverse := by simp
    rw [hinits, List.findSome?_cons]
    cases hf : f (l ++ [a]) with
    | some b => exact .self hf
    | none =>
      simp only [Option.map_none]
      split at ih
      · next hsearch =>
        rw [hsearch]
        intro k hk
        rcases List.prefix_concat_iff.1 hk with rfl | hk
        · exact hf
        · exact ih k hk
      · next hsearch =>
        rw [hsearch]
        exact ih.concat hf

end Search

section Walk

variable {β : Type} {f : Location → Option β} {xs g : List String} {b : β}

/-- What is nearest on the way back along a path is nearest on the way up from where the path leads,
if it lies there at all. -/
theorem Nearest.walk_iff (h : Nearest (fun ys => f (walk [] ys)) xs g b) :
    Nearest f (walk [] xs) (walk [] g) b ↔ walk [] g <+: walk [] xs := by
  refine ⟨fun h => h.above, fun habove => ⟨habove, h.here, fun k hk hk' hne => ?_⟩⟩
  obtain ⟨rest, rfl⟩ := h.above
  rw [Path.walk_append] at hk'
  obtain ⟨ys, hys, rfl⟩ := Path.walk_passes hk hk'
  rw [← Path.walk_append]
  refine h.between (g ++ ys) (List.prefix_append g ys) ((List.prefix_append_right_inj g).2 hys) ?_
  intro hsame
  obtain rfl := List.append_right_eq_self.1 hsame
  exact hne rfl

theorem walk_none (h : ∀ ys, ys <+: xs → f (walk [] ys) = none) (k : Location)
    (hk : k <+: walk [] xs) : f k = none := by
  obtain ⟨ys, hys, rfl⟩ := Path.walk_passes List.nil_prefix hk
  exact h ys hys

end Walk

/-! ## Module files -/

namespace FileTree

variable {t : FileTree} {root dir : String} {dirs : List String} {l : Location}

/-- The contents of the module file in a directory. -/
def manifestAt (t : FileTree) (dir : Location) : Option ByteArray :=
  match t.entry? (dir ++ [manifestName]) with
  | some (.file contents _) => some contents
  | _ => none

theorem Passes.lookup_join (hlinks : t.Linkless) (h : t.Passes [] (components dir)) (hdir : dir ≠ "")
    {name : String} (hname : IsName name) :
    t.lookup true (Path.join dir name) =
      match t.entry? (walk [] (components dir) ++ [name]) with
      | some entry => .ok entry
      | none => .error .notFound := by
  obtain ⟨mode, hdirectory⟩ := h.directory
  have hdescend : t.descend true (walk [] (components dir)) [name] = _ :=
    descend_cons_directory hdirectory hname []
  cases hentry : t.entry? (walk [] (components dir) ++ [name]) with
  | none =>
    rw [hentry] at hdescend
    have hplace := locate_join hname (h.locate hdir) hdescend
    simp only [lookup, FileTree.find, hplace]
  | some entry =>
    have hfound : t.descend true (walk [] (components dir)) [name] =
        .ok (.place (.found (walk [] (components dir) ++ [name]))) := by
      rw [hdescend, hentry]
      cases entry with
      | link target => exact absurd hentry (hlinks.entry?_ne _ target)
      | file contents mode => rfl
      | directory mode => rfl
    have hplace := locate_join hname (h.locate hdir) hfound
    simp only [lookup, FileTree.find, hplace, hentry]

/-- The search goes from directory to directory as the components of these say. -/
theorem findSome?_nearestManifest (hlinks : t.Linkless)
    (hdirs : ∀ dir ∈ dirs, dir ≠ "" ∧ t.Passes [] (components dir)) :
    (t.nearestManifest dirs).map (fun e => (components e.1, e.2)) =
      (dirs.map components).findSome? fun ys => (t.manifestAt (walk [] ys)).map (ys, ·) := by
  induction dirs with
  | nil => rfl
  | cons dir rest ih =>
    obtain ⟨⟨hne, hpasses⟩, hrest⟩ := List.forall_mem_cons.1 hdirs
    rw [nearestManifest, hpasses.lookup_join hlinks hne isName_manifestName, List.map_cons,
      List.findSome?_cons, manifestAt, ← ih hrest]
    cases t.entry? (walk [] (components dir) ++ [manifestName]) with
    | none => rfl
    | some entry => cases entry <;> rfl

/-- The nearest module file on the way back along the root. -/
theorem nearest_nearestManifest (hlinks : t.Linkless) (hroot : t.locate true root = .ok (.found l))
    (hdir : ∃ mode, t.entry? l = some (.directory mode)) :
    match t.nearestManifest (Path.ancestors root) with
    | none => ∀ ys, ys <+: components root → t.manifestAt (walk [] ys) = none
    | some (dir, contents) =>
      Nearest (fun ys => t.manifestAt (walk [] ys)) (components root) (components dir) contents := by
  have hne : root ≠ "" := by
    rintro rfl
    cases hroot
  have hpasses := hlinks.passes hroot hdir
  have hdirs : ∀ dir ∈ Path.ancestors root, dir ≠ "" ∧ t.Passes [] (components dir) := by
    intro dir hdir
    exact ⟨Path.ne_empty_of_mem_ancestors hne hdir,
      hpasses.front (Path.prefix_of_mem_ancestors hdir)⟩
  have hsearch := findSome?_nearestManifest hlinks hdirs
  have hnearest := nearest_of_findSome? (fun ys => t.manifestAt (walk [] ys)) (components root)
  rw [Path.components_ancestors] at hsearch
  rw [← hsearch] at hnearest
  cases hfound : t.nearestManifest (Path.ancestors root) with
  | none =>
    rw [hfound] at hnearest
    exact hnearest
  | some found =>
    rw [hfound] at hnearest
    exact hnearest

/-! ## What governs -/

/-- The search from `root` finds the module file of the closest directory at or above the location,
or none where no such directory has one. -/
def FindsGoverning (t : FileTree) (root : String) (l : Location) : Prop :=
  match t.nearestManifest (Path.ancestors root) with
  | none => ∀ g, g <+: l → t.manifestAt g = none
  | some (dir, contents) => ∃ g, t.find true dir = .ok g ∧ Nearest t.manifestAt l g contents

/-- The module governs the location, and the import path of the package is that of the module with the
names that lead from the directory of the module to that of the package. -/
def FollowsModule (t : FileTree) (l : Location) (m : SourceModule) (package : LoadedPackage) : Prop :=
  ∃ g contents names, Nearest t.manifestAt l g contents ∧ t.find true m.dir = .ok g ∧
    t.find true package.source.dir = .ok (g ++ names) ∧
    package.source.path = Text.join "/" (m.path :: names)

theorem IsDirectoryAt.ne_empty (h : t.IsDirectoryAt root l) : root ≠ "" := by
  rintro rfl
  cases h.found

theorem IsDirectoryAt.find_ancestor (h : t.IsDirectoryAt root l) (hlinks : t.Linkless)
    (hdir : dir ∈ Path.ancestors root) : t.find true dir = .ok (walk [] (components dir)) :=
  ((h.passes hlinks).front (Path.prefix_of_mem_ancestors hdir)).find
    (Path.ne_empty_of_mem_ancestors h.ne_empty hdir)

/-- The search is right if it ends at or above the location. -/
theorem IsDirectoryAt.findsGoverning_iff (h : t.IsDirectoryAt root l) (hlinks : t.Linkless) :
    t.FindsGoverning root l ↔
      ∀ dir contents, t.nearestManifest (Path.ancestors root) = some (dir, contents) →
        ∃ g, t.find true dir = .ok g ∧ g <+: l := by
  have hnearest := nearest_nearestManifest hlinks h.locate h.directory
  rw [FindsGoverning]
  cases hfound : t.nearestManifest (Path.ancestors root) with
  | none =>
    rw [hfound] at hnearest
    simp only [reduceCtorEq, false_implies, implies_true, iff_true]
    rw [h.eq_walk hlinks]
    exact walk_none hnearest
  | some found =>
    obtain ⟨dir, contents⟩ := found
    rw [hfound] at hnearest
    have hfind := h.find_ancestor hlinks (nearestManifest_eq_some hfound).1
    constructor
    · rintro ⟨g, hg, hgoverns⟩ dir' contents' hsame
      cases hsame
      exact ⟨g, hg, hgoverns.above⟩
    · intro habove
      obtain ⟨g, hg, hgl⟩ := habove dir contents rfl
      rw [hfind] at hg
      cases hg
      refine ⟨_, hfind, ?_⟩
      rw [h.eq_walk hlinks] at hgl ⊢
      exact hnearest.walk_iff.2 hgl

end FileTree

/-! ## Import paths -/

section Packages

variable {t : FileTree} {root : String} {l : Location} {loaded : Load} {m : SourceModule}
  {package : LoadedPackage}

/-- Where a package lies: below the root, by names that are read off its directory. -/
theorem FileTree.IsDirectoryAt.package_below (h : t.IsDirectoryAt root l) (ht : t.IsTree)
    (hlinks : t.Linkless) (hload : (load t root).result = .ok loaded)
    (hpackage : package ∈ loaded.packages) :
    ∃ module? key, findModule t root = .ok module? ∧
      components package.source.dir = components root ++ key ∧
      t.find true package.source.dir = .ok (l ++ key) ∧ (∀ name ∈ l ++ key, IsName name) ∧
      package.source.path = importPath module? root package.source.dir := by
  obtain ⟨module?, dirs, hmodule, hdirs, hsublist⟩ := load_paths hload
  rw [h.sourceFiles_eq] at hdirs
  cases hdirs
  obtain ⟨d, hd, hdir, hpath⟩ := exists_directory_of_mem hsublist hpackage
  rw [directoriesBelow_eq] at hd
  obtain ⟨group, hgroup, rfl⟩ := List.mem_map.1 hd
  obtain ⟨hcomponents, hkey⟩ := components_of_group ht root hgroup
  obtain ⟨hne, hpasses⟩ := h.passes_group ht hlinks hgroup
  have hnames : ∀ s ∈ l ++ group.1, IsName s := by
    obtain ⟨name, contents, hsource, -⟩ := exists_file_of_group root hgroup
    obtain ⟨mode, hget⟩ := hsource.file
    rw [← List.append_assoc] at hget
    exact fun s hs => ht.names _ _ hget s (List.mem_append_left _ hs)
  refine ⟨module?, group.1, hmodule, hdir ▸ hcomponents, ?_, hnames, hpath⟩
  rw [hdir, hpasses.find hne, hcomponents, Path.walk_append, ← h.eq_walk hlinks,
    Path.walk_names hkey]

/-- An import path follows the module exactly if the root is written without `..` behind the directory
of the module. -/
theorem FileTree.IsDirectoryAt.followsModule_iff (h : t.IsDirectoryAt root l) (ht : t.IsTree)
    (hlinks : t.Linkless) (hload : (load t root).result = .ok loaded)
    (hmodule : findModule t root = .ok (some m)) (hpackage : package ∈ loaded.packages) :
    t.FollowsModule l m package ↔ ".." ∉ (Path.relative? m.dir root).getD [] := by
  obtain ⟨contents, text, hfound, -, -⟩ := findModule_eq_some hmodule
  obtain ⟨module?, key, hmodule', hcomponents, hfind, hnames, hpath⟩ :=
    h.package_below ht hlinks hload hpackage
  cases hmodule.symm.trans hmodule'
  obtain ⟨behind, hbehind⟩ := (findModule_above hmodule).2
  have hfindModule := h.find_ancestor hlinks (nearestManifest_eq_some hfound).1
  have hrelative : Path.relative? m.dir package.source.dir = some (behind ++ key) := by
    refine Path.relative?_of_append ?_
    rw [hcomponents, ← hbehind, List.append_assoc]
  rw [importPath, hrelative, Option.getD_some] at hpath
  rw [Path.relative?_of_append hbehind.symm, Option.getD_some]
  constructor
  · rintro ⟨g, contents', names, -, -, hfind', hpath'⟩ hup
    have hlocation : l ++ key = g ++ names := by
      rw [hfind] at hfind'
      exact Except.ok.inj hfind'
    have hproper : ∀ name ∈ names, IsName name := fun name hname =>
      hnames name (hlocation ▸ List.mem_append_right g hname)
    have hslash : ∀ s ∈ behind ++ key, '/' ∉ s.toList := by
      intro s hs
      have hmem : s ∈ components package.source.dir := by
        rw [hcomponents, ← hbehind, List.append_assoc]
        exact List.mem_append_right _ hs
      exact Path.no_slash_of_mem_components hmem
    rw [hpath'] at hpath
    have hsame := Path.slashed_injective (fun s hs => (hproper s hs).no_slash) hslash hpath
    have hmem : ".." ∈ names := hsame ▸ List.mem_append_left key hup
    exact (hproper ".." hmem).not_up rfl
  · intro hup
    have hbehindNames : ∀ s ∈ behind, IsName s := by
      intro s hs
      have hmem : s ∈ components root := hbehind ▸ List.mem_append_right _ hs
      refine Path.isName_of_mem_components hmem ?_
      rintro rfl
      exact hup hs
    have hl : l = walk [] (components m.dir) ++ behind := by
      rw [h.eq_walk hlinks, ← hbehind, Path.walk_append, Path.walk_names hbehindNames]
    have hnearest := nearest_nearestManifest hlinks h.locate h.directory
    rw [hfound] at hnearest
    refine ⟨walk [] (components m.dir), contents, behind ++ key, ?_, hfindModule, ?_, hpath⟩
    · rw [h.eq_walk hlinks]
      refine hnearest.walk_iff.2 ?_
      rw [← h.eq_walk hlinks, hl]
      exact List.prefix_append _ _
    · rw [hfind, hl, List.append_assoc]

/-- In a tree without links the module of a root that leads to a directory is read from the first
module file on the way back along the root. That file governs the root exactly if it lies in the
directory of the root or in one above it, and the packages have import paths that follow the module
exactly if no `..` comes in the root behind the directory of the module. -/
theorem finds_governing_iff (ht : t.IsTree) (hlinks : t.Linkless) (hroot : t.IsDirectoryAt root l) :
    findModule t root = moduleOf (t.nearestManifest (Path.ancestors root)) ∧
      (t.FindsGoverning root l ↔
        ∀ dir contents, t.nearestManifest (Path.ancestors root) = some (dir, contents) →
          ∃ g, t.find true dir = .ok g ∧ g <+: l) ∧
      ∀ loaded m, (load t root).result = .ok loaded → findModule t root = .ok (some m) →
        ∀ package ∈ loaded.packages,
          t.FollowsModule l m package ↔ ".." ∉ (Path.relative? m.dir root).getD [] := by
  refine ⟨moduleAmong_eq t _, hroot.findsGoverning_iff hlinks, ?_⟩
  intro loaded m hload hmodule package hpackage
  exact hroot.followsModule_iff ht hlinks hload hmodule hpackage

end Packages

/-- An inner directory of a module, by its plain path. -/
theorem finds_governing_iff_nested :
    TwoRoots.tree.IsTree ∧ TwoRoots.tree.Linkless ∧
      TwoRoots.tree.IsDirectoryAt "/m/sub" ["m", "sub"] ∧
      TwoRoots.tree.FindsGoverning "/m/sub" ["m", "sub"] ∧
      (load TwoRoots.tree "/m/sub").result = .ok (.ofSources [TwoRoots.innerPackage]) ∧
      ∀ package ∈ (Load.ofSources [TwoRoots.innerPackage]).packages,
        TwoRoots.tree.FollowsModule ["m", "sub"] ⟨"m", "/m"⟩ package := by
  have ht : TwoRoots.tree.IsTree := by decide +kernel
  have hlinks : TwoRoots.tree.Linkless := by decide
  have hroot : TwoRoots.tree.IsDirectoryAt "/m/sub" ["m", "sub"] := ⟨by rfl, _, by rfl⟩
  obtain ⟨-, hfinds, hfollows⟩ := finds_governing_iff ht hlinks hroot
  refine ⟨ht, hlinks, hroot, hfinds.2 ?_, TwoRoots.load_inner, ?_⟩
  · intro dir contents hfound
    have hnearest : TwoRoots.tree.nearestManifest (Path.ancestors "/m/sub") =
        some ("/m", TwoRoots.manifestText.toUTF8) := by rfl
    cases hnearest.symm.trans hfound
    exact ⟨["m"], by rfl, by decide⟩
  · intro package hpackage
    exact (hfollows _ _ TwoRoots.load_inner TwoRoots.findModule_inner package hpackage).2 (by decide)

/-! ## A root that goes up again -/

namespace Climbing

def source : String := "package c\n"

def outerManifest : String := "module example.com/app\n"

def innerManifest : String := "module example.com/nested\n"

def root : String := "/a/b/../c"

/-- A module with a package, and a module of its own in a directory beside the one of the package. -/
def tree : FileTree :=
  .ofList [(["go.mod"], .file outerManifest.toUTF8 0o644), (["a"], .directory 0o755),
    (["a", "b"], .directory 0o755), (["a", "b", "go.mod"], .file innerManifest.toUTF8 0o644),
    (["a", "c"], .directory 0o755), (["a", "c", "c.go"], .file source.toUTF8 0o644)]

def package : SourcePackage :=
  ⟨"c", "example.com/nested/../c", root, ["/a/b/../c/c.go"], [⟨"/a/b/../c/c.go", "c", [], []⟩]⟩

theorem findModule_eq : findModule tree root = .ok (some ⟨"example.com/nested", "/a/b"⟩) := by
  have hnearest : tree.nearestManifest (Path.ancestors root) =
      some ("/a/b", innerManifest.toUTF8) := by rfl
  have hpath : modulePath? innerManifest = some "example.com/nested" := by rfl
  exact findModule_of_nearest hnearest hpath

theorem parsePackage_eq :
    parsePackage tree (some ⟨"example.com/nested", "/a/b"⟩) root ⟨root, ["/a/b/../c/c.go"]⟩ =
      ⟨[], .ok (some package)⟩ := by
  have hread : tree.readText "/a/b/../c/c.go" = .ok source := FileTree.readText_of_toUTF8 rfl
  have hin : isExcluded source = false := by cbv
  have hparse : SourceFile.parse "/a/b/../c/c.go" source =
      .ok ⟨"/a/b/../c/c.go", "c", [], []⟩ := by cbv
  rw [parsePackage_singleton hread hin hparse]
  rfl

theorem load_eq : (load tree root).result = .ok (.ofSources [package]) := by
  have hfiles : sourceFiles tree root = .ok [⟨root, ["/a/b/../c/c.go"]⟩] := by rfl
  simp only [load, findModule_eq, hfiles, Reported.ofExcept_ok_bind, parsePackages, parsePackage_eq]
  rfl

theorem isTree : tree.IsTree := by decide +kernel

theorem linkless : tree.Linkless := by decide

theorem isDirectoryAt_root : tree.IsDirectoryAt root ["a", "c"] := ⟨by rfl, _, by rfl⟩

/-- The module file that governs the directory lies at the top. -/
theorem nearest_outer : Nearest tree.manifestAt ["a", "c"] [] outerManifest.toUTF8 := by
  refine ⟨List.nil_prefix, by rfl, fun k _ hk hne => ?_⟩
  rcases List.prefix_concat_iff.1 (show k <+: ["a"] ++ ["c"] from hk) with rfl | hk
  · rfl
  · rcases List.prefix_concat_iff.1 (show k <+: [] ++ ["a"] from hk) with rfl | hk
    · rfl
    · exact absurd (List.prefix_nil.1 hk) hne

end Climbing

/-- The module of a directory that the root goes through and leaves again is found, and the import path
of the package has a `..` in it. -/
theorem left_module_found :
    Climbing.tree.IsTree ∧ Climbing.tree.Linkless ∧
      Climbing.tree.IsDirectoryAt Climbing.root ["a", "c"] ∧
      Nearest Climbing.tree.manifestAt ["a", "c"] [] Climbing.outerManifest.toUTF8 ∧
      modulePath? Climbing.outerManifest = some "example.com/app" ∧
      findModule Climbing.tree Climbing.root = .ok (some ⟨"example.com/nested", "/a/b"⟩) ∧
      ¬ Climbing.tree.FindsGoverning Climbing.root ["a", "c"] ∧
      (load Climbing.tree Climbing.root).result = .ok (.ofSources [Climbing.package]) ∧
      Climbing.package.path = "example.com/nested/../c" ∧
      ∀ package ∈ (Load.ofSources [Climbing.package]).packages,
        ¬ Climbing.tree.FollowsModule ["a", "c"] ⟨"example.com/nested", "/a/b"⟩ package := by
  refine ⟨Climbing.isTree, Climbing.linkless, Climbing.isDirectoryAt_root, Climbing.nearest_outer,
    by rfl, Climbing.findModule_eq, ?_, Climbing.load_eq, rfl, ?_⟩
  · rw [Climbing.isDirectoryAt_root.findsGoverning_iff Climbing.linkless]
    intro habove
    obtain ⟨g, hfind, hg⟩ := habove "/a/b" Climbing.innerManifest.toUTF8 (by rfl)
    have hfound : Climbing.tree.find true "/a/b" = .ok ["a", "b"] := by rfl
    cases hfound.symm.trans hfind
    revert hg
    decide
  · intro package hpackage
    rw [Climbing.isDirectoryAt_root.followsModule_iff Climbing.isTree Climbing.linkless
      Climbing.load_eq Climbing.findModule_eq hpackage]
    decide

end ResetMethods

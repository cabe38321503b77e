import ResetMethods.Proofs.Files.Lexical
import ResetMethods.Proofs.Loading.Grouping

/-!
# ResetMethods.Proofs.Loading.ImportPaths

Import paths identify packages.

* `findModule_eq_some`: the module that is found is the one that the nearest module file states.
* `components_of_group`: the directory of a group of files is reached from the root by the names that
  the group is listed under.
* `load_paths`: the packages of a load have the import paths of different such directories.
* `segments_importPath`: an import path can be cut into the module path, or nothing, and the names of
  the directory. So different directories have different import paths (`importPath_injective`).
* `importPaths_identify`: no two packages of a load share an import path, and loads from different
  roots of one module agree on it.
-/

namespace ResetMethods

open ResetMethods.Path (components segments)

/-! ## The module -/

section Module

variable {t : FileTree} {root dir : String} {dirs : List String} {contents : ByteArray}

theorem FileTree.nearestManifest_eq_some (h : t.nearestManifest dirs = some (dir, contents)) :
    dir ∈ dirs ∧ ∃ mode, t.lookup true (Path.join dir manifestName) = .ok (.file contents mode) := by
  induction dirs with
  | nil => cases h
  | cons first rest ih =>
    rw [nearestManifest] at h
    split at h
    · next hfile =>
      cases h
      exact ⟨List.mem_cons_self, _, hfile⟩
    · obtain ⟨hmem, hfile⟩ := ih h
      exact ⟨List.mem_cons_of_mem _ hmem, hfile⟩

theorem findModule_eq_some {m : SourceModule} (h : findModule t root = .ok (some m)) :
    ∃ contents text, t.nearestManifest (Path.ancestors root) = some (m.dir, contents) ∧
      textOf contents = .ok text ∧ modulePath? text = some m.path := by
  rw [findModule, moduleAmong_eq] at h
  cases hnearest : t.nearestManifest (Path.ancestors root) with
  | none =>
    rw [hnearest] at h
    cases h
  | some found =>
    obtain ⟨dir, contents⟩ := found
    rw [hnearest, moduleOf] at h
    split at h
    · cases h
    · next text htext =>
      split at h
      · next path hpath =>
        cases h
        exact ⟨contents, text, rfl, htext, hpath⟩
      · cases h

theorem findModule_of_nearest {manifest path : String}
    (hnearest : t.nearestManifest (Path.ancestors root) = some (dir, manifest.toUTF8))
    (hpath : modulePath? manifest = some path) : findModule t root = .ok (some ⟨path, dir⟩) := by
  rw [findModule, moduleAmong_eq, hnearest]
  simp only [moduleOf, textOf, Layout.fromUTF8?_toUTF8, hpath]

theorem modulePath?_ne_empty {manifest path : String} (h : modulePath? manifest = some path) :
    path ≠ "" := by
  obtain ⟨line, -, hline⟩ := List.exists_of_findSome?_eq_some h
  unfold moduleOnLine at hline
  split at hline
  · cases hline
  · split at hline
    · next hblank =>
      simp only at hline
      split at hline
      · cases hline
      · next hne =>
        cases hline
        simpa using hne
    · cases hline

/-- The module that governs a root lies at or above it, as far as the texts say. -/
theorem findModule_above {m : SourceModule} (h : findModule t root = .ok (some m)) :
    m.path ≠ "" ∧ components m.dir <+: components root := by
  obtain ⟨contents, text, hnearest, -, hpath⟩ := findModule_eq_some h
  exact ⟨modulePath?_ne_empty hpath,
    Path.prefix_of_mem_ancestors (FileTree.nearestManifest_eq_some hnearest).1⟩

end Module

/-! ## The directories of a load -/

section Directories

variable {t : FileTree} {root : String} {l : Location} {module? : Option SourceModule}
  {dirs : List SourceDirectory} {d : SourceDirectory}

theorem files_ne_nil : ∀ e ∈ filesByDirectory t l, e.2 ≠ [] := by
  have hfold : ∀ (sources : List Location) (files : Dict Location (List Location)),
      (∀ e ∈ files.entries, e.2 ≠ []) → ∀ e ∈ (sources.foldl addFile files).entries, e.2 ≠ [] := by
    intro sources
    induction sources with
    | nil => exact fun _ hfiles => hfiles
    | cons source rest ih =>
      intro files hfiles
      refine ih _ fun e he => ?_
      rcases Dict.mem_insertEntry he with rfl | hold
      · simp
      · exact hfiles e hold
  have hempty : ∀ e ∈ (Dict.empty : Dict Location (List Location)).entries, e.2 ≠ [] := by
    intro e he
    cases he
  exact hfold (t.sourcesBelow l) .empty hempty

/-- The source files of one group, as a directory below `root`. -/
def directoryOf (root : String) (group : Location × List Location) : SourceDirectory :=
  .ofFiles (group.2.map (Path.joinAll root))

theorem directoriesBelow_eq (t : FileTree) (root : String) (l : Location) :
    directoriesBelow t root l = (filesByDirectory t l).map (directoryOf root) := rfl

/-- A group has a first file, which lies in the directory that the group is listed under. -/
theorem exists_file_of_group (root : String) {group : Location × List Location}
    (hgroup : group ∈ filesByDirectory t l) :
    ∃ name contents, t.HasSource l (group.1 ++ [name]) contents ∧
      (directoryOf root group).dir =
        (Path.parent? (Path.joinAll root (group.1 ++ [name]))).getD "" := by
  obtain ⟨key, files⟩ := group
  obtain ⟨first, rest, rfl⟩ := List.exists_cons_of_ne_nil (files_ne_nil _ hgroup)
  obtain ⟨hlisted, hkey⟩ := mem_filesByDirectory hgroup List.mem_cons_self
  obtain ⟨contents, hsource⟩ := FileTree.mem_sourcesBelow_iff.1 hlisted
  have hfirst : key ++ [first.getLast hsource.ne_nil] = first := by
    rw [← show first.dropLast = key from hkey]
    exact List.dropLast_concat_getLast hsource.ne_nil
  refine ⟨first.getLast hsource.ne_nil, contents, ?_, ?_⟩
  · simp only [hfirst]
    exact hsource
  · simp only [hfirst]
    rfl

theorem isName_of_hasSource (ht : t.IsTree) {names : Location} {contents : ByteArray}
    (h : t.HasSource l names contents) : ∀ name ∈ names, IsName name := by
  obtain ⟨mode, hget⟩ := h.file
  exact fun name hname => ht.names _ _ hget name (List.mem_append_right l hname)

theorem components_of_group (ht : t.IsTree) (root : String) {group : Location × List Location}
    (hgroup : group ∈ filesByDirectory t l) :
    components (directoryOf root group).dir = components root ++ group.1 ∧
      ∀ name ∈ group.1, IsName name := by
  obtain ⟨name, contents, hsource, hdir⟩ := exists_file_of_group root hgroup
  have hnames := isName_of_hasSource ht hsource
  refine ⟨?_, fun s hs => hnames s (List.mem_append_left _ hs)⟩
  rw [hdir, Path.components_parent?, Path.components_joinAll hnames, ← List.append_assoc,
    List.dropLast_concat]

theorem FileTree.IsDirectoryAt.eq_walk (h : t.IsDirectoryAt root l) (hlinks : t.Linkless) :
    l = Path.walk [] (components root) :=
  hlinks.location_of_locate h.locate

theorem FileTree.IsDirectoryAt.passes (h : t.IsDirectoryAt root l) (hlinks : t.Linkless) :
    t.Passes [] (components root) :=
  hlinks.passes h.locate h.directory

/-- The path of a group leads through directories. -/
theorem FileTree.IsDirectoryAt.passes_group (h : t.IsDirectoryAt root l) (ht : t.IsTree)
    (hlinks : t.Linkless) {group : Location × List Location}
    (hgroup : group ∈ filesByDirectory t l) :
    (directoryOf root group).dir ≠ "" ∧ t.Passes [] (components (directoryOf root group).dir) := by
  obtain ⟨name, contents, hsource, hdir⟩ := exists_file_of_group root hgroup
  obtain ⟨mode, hget⟩ := hsource.file
  rw [← List.append_assoc] at hget
  constructor
  · rw [hdir]
    refine Path.parent?_ne_empty ?_
    rw [Path.components_joinAll (isName_of_hasSource ht hsource)]
    simp
  · rw [(components_of_group ht root hgroup).1, passes_append, ← h.eq_walk hlinks]
    exact ⟨h.passes hlinks, ht.passes hget⟩

/-- A root is a directory, with the directories below it, or stands for no more than one file. -/
theorem sourceFiles_cases (ht : t.IsTree) (hlinks : t.Linkless)
    (h : sourceFiles t root = .ok dirs) :
    (∃ l, t.IsDirectoryAt root l ∧ dirs = directoriesBelow t root l) ∨
      dirs.length ≤ 1 ∧ ∀ d ∈ dirs, components d.dir = (components root).dropLast ∧ d.dir ≠ "" ∧
        t.Passes [] (components d.dir) := by
  unfold sourceFiles at h
  cases hfind : t.find false root with
  | error cause =>
    rw [hfind] at h
    cases h
  | ok l =>
    rw [hfind] at h
    obtain ⟨entry, hentry⟩ :=
      Option.ne_none_iff_exists'.1 (ht.entry?_of_found (FileTree.locate_of_find hfind))
    cases entry with
    | file contents mode =>
      simp only [hentry] at h
      cases h
      right
      split
      · next hname =>
        have hne : components root ≠ [] := by
          intro hnil
          rw [Path.fileName?, hnil] at hname
          cases hname
        have hdir : components (SourceDirectory.ofFiles [root]).dir = (components root).dropLast :=
          Path.components_parent? root
        refine ⟨Nat.le_refl 1, fun d hd => ?_⟩
        rw [List.mem_singleton.1 hd]
        refine ⟨hdir, Path.parent?_ne_empty hne, ?_⟩
        rw [hdir]
        exact hlinks.passes_dropLast (FileTree.locate_of_find hfind)
      · refine ⟨Nat.zero_le 1, fun d hd => ?_⟩
        cases hd
    | directory mode =>
      simp only [hentry] at h
      cases h
      exact .inl ⟨l, ⟨hfind, mode, hentry⟩, rfl⟩
    | link target => exact absurd hentry (hlinks.entry?_ne l target)

/-- Where the root is written without `..`, so are the directories of its packages. -/
theorem up_not_mem_of_sourceFiles (ht : t.IsTree) (hlinks : t.Linkless)
    (h : sourceFiles t root = .ok dirs) (hup : ".." ∉ components root) (hd : d ∈ dirs) :
    ".." ∉ components d.dir := by
  rcases sourceFiles_cases ht hlinks h with ⟨l, -, rfl⟩ | ⟨-, hdirs⟩
  · obtain ⟨group, hgroup, rfl⟩ := List.mem_map.1 (directoriesBelow_eq t root l ▸ hd)
    obtain ⟨hcomponents, hnames⟩ := components_of_group ht root hgroup
    rw [hcomponents, List.mem_append, not_or]
    exact ⟨hup, fun hkey => (hnames ".." hkey).not_up rfl⟩
  · rw [(hdirs d hd).1]
    exact fun hmem => hup ((List.dropLast_sublist _).subset hmem)

/-- The directories that are listed are found. -/
theorem find_of_sourceFiles (ht : t.IsTree) (hlinks : t.Linkless)
    (h : sourceFiles t root = .ok dirs) (hd : d ∈ dirs) :
    ∃ place, t.find true d.dir = .ok place ∧ ∃ mode, t.entry? place = some (.directory mode) := by
  have hpasses : d.dir ≠ "" ∧ t.Passes [] (components d.dir) := by
    rcases sourceFiles_cases ht hlinks h with ⟨l, hroot, rfl⟩ | ⟨-, hdirs⟩
    · obtain ⟨group, hgroup, rfl⟩ := List.mem_map.1 (directoriesBelow_eq t root l ▸ hd)
      exact hroot.passes_group ht hlinks hgroup
    · exact (hdirs d hd).2
  exact ⟨_, hpasses.2.find hpasses.1, hpasses.2.directory⟩

/-! ## Import paths -/

theorem importPath_ne_empty (hpath : ∀ m, module? = some m → m.path ≠ "") (root dir : String) :
    importPath module? root dir ≠ "" := by
  cases module? with
  | some m => exact Path.slashed_ne_empty (hpath m rfl) _
  | none =>
    rw [importPath]
    cases hnames : Path.relative? root dir with
    | none => decide
    | some names =>
      cases names with
      | nil => decide
      | cons s rest =>
        -- a component is not idle, so the first name is not empty
        have hcomponents : components dir = components root ++ s :: rest :=
          Text.after?_eq_some hnames
        refine Path.slashed_ne_empty ?_ rest
        rintro rfl
        have hempty : "" ∈ components dir := by simp [hcomponents]
        have hidle := Path.not_idle_of_mem_components hempty
        cases hidle

/-- The directory that import paths count from. -/
def baseOf (module? : Option SourceModule) (root : String) : String :=
  (module?.map (·.dir)).getD root

/-- What stands in an import path for a directory that the names lead to from the base. -/
def namesBehind : Option SourceModule → List String → List String
  | some m, names => segments m.path ++ names
  | none, [] => ["."]
  | none, names => names

theorem segments_importPath {dir : String} {names : List String}
    (h : components dir = components (baseOf module? root) ++ names) :
    segments (importPath module? root dir) = namesBehind module? names := by
  have hslash : ∀ s ∈ names, '/' ∉ s.toList := by
    intro s hs
    have hmem : s ∈ components dir := h ▸ List.mem_append_right _ hs
    exact Path.no_slash_of_mem_components hmem
  cases module? with
  | some m =>
    have hbase : baseOf (some m) root = m.dir := rfl
    rw [importPath, Path.relative?_of_append (hbase ▸ h), Option.getD_some]
    exact Path.segments_slashed_cons m.path hslash
  | none =>
    have hbase : baseOf none root = root := rfl
    rw [importPath, Path.relative?_of_append (hbase ▸ h), Option.getD_some]
    cases names with
    | nil => rfl
    | cons s rest => exact Path.segments_slashed (List.cons_ne_nil s rest) hslash

theorem namesBehind_injective {xs ys : List String} (hxs : ∀ s ∈ xs, Path.isIdle s = false)
    (hys : ∀ s ∈ ys, Path.isIdle s = false) (h : namesBehind module? xs = namesBehind module? ys) :
    xs = ys := by
  have hdot : ∀ zs : List String, (∀ s ∈ zs, Path.isIdle s = false) → zs ≠ ["."] := by
    rintro zs hzs rfl
    have hidle := hzs "." List.mem_cons_self
    cases hidle
  cases module? with
  | some m => exact List.append_cancel_left h
  | none =>
    cases xs with
    | nil =>
      cases ys with
      | nil => rfl
      | cons y ys => exact absurd h.symm (hdot _ hys)
    | cons x xs =>
      cases ys with
      | nil => exact absurd h (hdot _ hxs)
      | cons y ys => exact h

/-- Directories at or below the base have the same import path only if they are the same. -/
theorem importPath_injective {dir dir' : String}
    (h : components (baseOf module? root) <+: components dir)
    (h' : components (baseOf module? root) <+: components dir')
    (hpath : importPath module? root dir = importPath module? root dir') :
    components dir = components dir' := by
  obtain ⟨names, hnames⟩ := h
  obtain ⟨names', hnames'⟩ := h'
  have hidle : ∀ s ∈ names, Path.isIdle s = false := by
    intro s hs
    have hmem : s ∈ components dir := hnames ▸ List.mem_append_right _ hs
    exact Path.not_idle_of_mem_components hmem
  have hidle' : ∀ s ∈ names', Path.isIdle s = false := by
    intro s hs
    have hmem : s ∈ components dir' := hnames' ▸ List.mem_append_right _ hs
    exact Path.not_idle_of_mem_components hmem
  have hsegments := congrArg segments hpath
  rw [segments_importPath hnames.symm, segments_importPath hnames'.symm] at hsegments
  rw [← hnames, ← hnames', namesBehind_injective hidle hidle' hsegments]

/-- With a module, an import path depends on the directories of the module and of the package only. -/
theorem importPath_congr {m m' : SourceModule} {root' dir dir' : String} (hpath : m.path = m'.path)
    (hmodule : components m.dir = components m'.dir) (hdir : components dir = components dir') :
    importPath (some m) root dir = importPath (some m') root' dir' := by
  rw [importPath, importPath, Path.relative?, Path.relative?, hpath, hmodule, hdir]

/-! ## Loads -/

theorem FileTree.readText_of_toUTF8 {path text : String} {mode : Nat}
    (h : t.lookup true path = .ok (.file text.toUTF8 mode)) : t.readText path = .ok text := by
  rw [readText_of_lookup h, textOf, Layout.fromUTF8?_toUTF8]

/-- The package of a directory with one file. -/
theorem parsePackage_singleton {dir path text : String} {file : SourceFile}
    (hread : t.readText path = .ok text) (hin : isExcluded text = false)
    (hparse : SourceFile.parse path text = .ok file) :
    parsePackage t module? root ⟨dir, [path]⟩ =
      ⟨[], .ok (some ⟨file.package, importPath module? root dir, dir, [file.path], [file]⟩)⟩ := by
  simp only [parsePackage, parseFiles, hread, hin, hparse, Reported.ofExcept_ok_bind,
    Option.getD_none, if_true]
  rfl

theorem parsePackages_paths {sources : List SourcePackage}
    (h : (parsePackages t module? root dirs).result = .ok sources) :
    (sources.map fun source => (source.dir, source.path)).Sublist
      (dirs.map fun d => (d.dir, importPath module? root d.dir)) := by
  induction dirs generalizing sources with
  | nil =>
    cases h
    exact .slnil
  | cons d rest ih =>
    obtain ⟨package?, hpackage, h⟩ := Reported.bind_eq_ok h
    obtain ⟨others, hothers, h⟩ := Reported.bind_eq_ok h
    cases h
    obtain ⟨files, -, hpackage⟩ := Reported.bind_eq_ok hpackage
    cases files with
    | nil =>
      cases hpackage
      exact (ih hothers).cons _
    | cons first files =>
      cases hpackage
      exact (ih hothers).cons_cons _

/-- The packages of a load are those of some of the directories, with the import paths of these. -/
theorem load_paths {loaded : Load} (h : (load t root).result = .ok loaded) :
    ∃ module? dirs, findModule t root = .ok module? ∧ sourceFiles t root = .ok dirs ∧
      (loaded.packages.map fun p => (p.source.dir, p.source.path)).Sublist
        (dirs.map fun d => (d.dir, importPath module? root d.dir)) := by
  obtain ⟨module?, hmodule, h⟩ := Reported.bind_eq_ok h
  obtain ⟨dirs, hdirs, h⟩ := Reported.bind_eq_ok h
  obtain ⟨sources, hsources, h⟩ := Reported.bind_eq_ok h
  obtain ⟨-, -, h⟩ := Reported.bind_eq_ok h
  cases h
  refine ⟨module?, dirs, hmodule, hdirs, ?_⟩
  have hpackages : (Load.ofSources sources).packages.map (fun p => (p.source.dir, p.source.path)) =
      sources.map fun source => (source.dir, source.path) := by
    rw [Load.ofSources, List.map_map]
    rfl
  rw [hpackages]
  exact parsePackages_paths hsources

theorem exists_directory_of_mem {packages : List LoadedPackage} {package : LoadedPackage}
    (h : (packages.map fun p => (p.source.dir, p.source.path)).Sublist
      (dirs.map fun d => (d.dir, importPath module? root d.dir)))
    (hpackage : package ∈ packages) :
    ∃ d ∈ dirs, package.source.dir = d.dir ∧
      package.source.path = importPath module? root package.source.dir := by
  have hmem := h.subset (List.mem_map_of_mem (f := fun p => (p.source.dir, p.source.path)) hpackage)
  obtain ⟨d, hd, hsame⟩ := List.mem_map.1 hmem
  obtain ⟨hdir, hpath⟩ := Prod.mk.inj hsame
  exact ⟨d, hd, hdir.symm, by rw [← hpath, ← hdir]⟩

/-- No two directories of a load have the same import path. -/
theorem pairwise_importPath (ht : t.IsTree) (hlinks : t.Linkless)
    (hmodule : findModule t root = .ok module?) (hdirs : sourceFiles t root = .ok dirs) :
    dirs.Pairwise fun d d' => importPath module? root d.dir ≠ importPath module? root d'.dir := by
  have hbase : components (baseOf module? root) <+: components root := by
    cases module? with
    | none => exact List.prefix_rfl
    | some m => exact (findModule_above hmodule).2
  rcases sourceFiles_cases ht hlinks hdirs with ⟨l, -, rfl⟩ | ⟨hone, -⟩
  · rw [directoriesBelow_eq, List.pairwise_map]
    have hsorted : (filesByDirectory t l).Pairwise fun a b => compare a.1 b.1 = .lt := Dict.sorted _
    refine hsorted.imp_of_mem fun {group group'} hgroup hgroup' hlt hpath => ?_
    obtain ⟨hcomponents, -⟩ := components_of_group ht root hgroup
    obtain ⟨hcomponents', -⟩ := components_of_group ht root hgroup'
    have hsame := importPath_injective (hcomponents ▸ hbase.trans (List.prefix_append _ _))
      (hcomponents' ▸ hbase.trans (List.prefix_append _ _)) hpath
    rw [hcomponents, hcomponents'] at hsame
    rw [List.append_cancel_left hsame] at hlt
    exact Dict.not_lt_self group'.1 hlt
  · match dirs, hone with
    | [], _ => exact .nil
    | [d], _ => exact List.pairwise_singleton _ d

end Directories

/-- The module file that governs a root lies at the location. -/
def FileTree.GovernedFrom (t : FileTree) (root : String) (manifest : Location) : Prop :=
  ∃ m, findModule t root = .ok (some m) ∧
    t.find true (Path.join m.dir manifestName) = .ok manifest

section Loads

variable {t : FileTree} {root root' : String} {manifest : Location} {loaded loaded' : Load}

theorem isName_manifestName : IsName manifestName := by decide

/-- A module file states one module, and without `..` it is named by one path only. -/
theorem governedFrom_unique (hlinks : t.Linkless) {m m' : SourceModule}
    (hmodule : findModule t root = .ok (some m)) (hmodule' : findModule t root' = .ok (some m'))
    (hmanifest : t.find true (Path.join m.dir manifestName) = .ok manifest)
    (hmanifest' : t.find true (Path.join m'.dir manifestName) = .ok manifest)
    (hup : ".." ∉ components root) (hup' : ".." ∉ components root') :
    m.path = m'.path ∧ components m.dir = components m'.dir := by
  have hlocation : ∀ {root : String} {m : SourceModule}, findModule t root = .ok (some m) →
      t.find true (Path.join m.dir manifestName) = .ok manifest → ".." ∉ components root →
      manifest = components m.dir ++ [manifestName] := by
    intro root m hmodule hmanifest hup
    have hout : ".." ∉ components (Path.join m.dir manifestName) := by
      rw [Path.components_join isName_manifestName, List.mem_append, not_or]
      exact ⟨fun h => hup ((findModule_above hmodule).2.subset h), by decide⟩
    rw [hlinks.location_of_find hmanifest, Path.walk_components hout,
      Path.components_join isName_manifestName]
  constructor
  · obtain ⟨contents, text, hnearest, htext, hpath⟩ := findModule_eq_some hmodule
    obtain ⟨contents', text', hnearest', htext', hpath'⟩ := findModule_eq_some hmodule'
    obtain ⟨-, mode, hfile⟩ := FileTree.nearestManifest_eq_some hnearest
    obtain ⟨-, mode', hfile'⟩ := FileTree.nearestManifest_eq_some hnearest'
    have hlookup : t.lookup true (Path.join m.dir manifestName) =
        t.lookup true (Path.join m'.dir manifestName) := by
      rw [FileTree.lookup, FileTree.lookup, hmanifest, hmanifest']
    rw [hfile, hfile'] at hlookup
    cases hlookup
    rw [htext] at htext'
    cases htext'
    rw [hpath] at hpath'
    exact Option.some.inj hpath'
  · have hsame := hlocation hmodule hmanifest hup
    rw [hlocation hmodule' hmanifest' hup'] at hsame
    exact (List.append_cancel_right hsame).symm

/-- In a tree without links the packages of a load lie in directories that are found and all have
different import paths, none of them empty. Where one module file governs two roots that are written
without `..`, a directory has the same import path in the loads from both. -/
theorem importPaths_identify (ht : t.IsTree) (hlinks : t.Linkless)
    (hload : (load t root).result = .ok loaded) :
    (loaded.packages.Pairwise fun p q =>
        p.source.dir ≠ q.source.dir ∧ p.source.path ≠ q.source.path) ∧
      (∀ p ∈ loaded.packages, p.source.path ≠ "" ∧
        ∃ dir, t.find true p.source.dir = .ok dir ∧ ∃ mode, t.entry? dir = some (.directory mode)) ∧
      ∀ root' loaded' manifest, (load t root').result = .ok loaded' →
        t.GovernedFrom root manifest → t.GovernedFrom root' manifest →
        ".." ∉ components root → ".." ∉ components root' →
        ∀ p ∈ loaded.packages, ∀ p' ∈ loaded'.packages, ∀ dir,
          t.find true p.source.dir = .ok dir → t.find true p'.source.dir = .ok dir →
          p.source.path = p'.source.path := by
  obtain ⟨module?, dirs, hmodule, hdirs, hsublist⟩ := load_paths hload
  have hpairwise := pairwise_importPath ht hlinks hmodule hdirs
  refine ⟨?_, ?_, ?_⟩
  · have hpairs : (dirs.map fun d => (d.dir, importPath module? root d.dir)).Pairwise
        fun a b => a.1 ≠ b.1 ∧ a.2 ≠ b.2 := by
      refine List.pairwise_map.2 (hpairwise.imp fun {d d'} hpath => ⟨fun hdir => hpath ?_, hpath⟩)
      have hdir : d.dir = d'.dir := hdir
      rw [hdir]
    exact List.pairwise_map.1 (hpairs.sublist hsublist)
  · intro p hp
    obtain ⟨d, hd, hdir, hpath⟩ := exists_directory_of_mem hsublist hp
    constructor
    · rw [hpath]
      refine importPath_ne_empty (fun m hm => ?_) root _
      subst hm
      exact (findModule_above hmodule).1
    · rw [hdir]
      exact find_of_sourceFiles ht hlinks hdirs hd
  · rintro root' loaded' manifest hload' ⟨m, hm, hmanifest⟩ ⟨m', hm', hmanifest'⟩ hup hup' p hp p' hp'
      dir hdir hdir'
    obtain ⟨module?', dirs', hmodule', hdirs', hsublist'⟩ := load_paths hload'
    cases hmodule.symm.trans hm
    cases hmodule'.symm.trans hm'
    obtain ⟨d, hd, hsame, hpath⟩ := exists_directory_of_mem hsublist hp
    obtain ⟨d', hd', hsame', hpath'⟩ := exists_directory_of_mem hsublist' hp'
    obtain ⟨hmodulePath, hmoduleDir⟩ := governedFrom_unique hlinks hm hm' hmanifest hmanifest' hup hup'
    -- without `..` a directory that is found lies where its components say
    have hlocation := hlinks.location_of_find hdir
    have hlocation' := hlinks.location_of_find hdir'
    rw [Path.walk_components (hsame ▸ up_not_mem_of_sourceFiles ht hlinks hdirs hup hd)] at hlocation
    rw [Path.walk_components (hsame' ▸ up_not_mem_of_sourceFiles ht hlinks hdirs' hup' hd')]
      at hlocation'
    rw [hpath, hpath']
    exact importPath_congr hmodulePath hmoduleDir (hlocation.symm.trans hlocation')

end Loads

/-! ## One module from two roots -/

namespace TwoRoots

def outerSource : String := "package p\n"

def innerSource : String := "package q\n"

def manifestText : String := "module m\n"

def outerPackage : SourcePackage :=
  ⟨"p", "m", "/m", ["/m/a.go"], [⟨"/m/a.go", "p", [], []⟩]⟩

def innerPackage : SourcePackage :=
  ⟨"q", "m/sub", "/m/sub", ["/m/sub/b.go"], [⟨"/m/sub/b.go", "q", [], []⟩]⟩

/-- A module with a package in its directory and one in a directory below. -/
def tree : FileTree :=
  .ofList [(["m"], .directory 0o755), (["m", "a.go"], .file outerSource.toUTF8 0o644),
    (["m", "go.mod"], .file manifestText.toUTF8 0o644), (["m", "sub"], .directory 0o755),
    (["m", "sub", "b.go"], .file innerSource.toUTF8 0o644)]

theorem findModule_eq {root : String}
    (h : tree.nearestManifest (Path.ancestors root) = some ("/m", manifestText.toUTF8)) :
    findModule tree root = .ok (some ⟨"m", "/m"⟩) :=
  findModule_of_nearest h rfl

theorem findModule_outer : findModule tree "/m" = .ok (some ⟨"m", "/m"⟩) := findModule_eq rfl

theorem findModule_inner : findModule tree "/m/sub" = .ok (some ⟨"m", "/m"⟩) := findModule_eq rfl

theorem parsePackage_outer {root : String} :
    parsePackage tree (some ⟨"m", "/m"⟩) root ⟨"/m", ["/m/a.go"]⟩ =
      ⟨[], .ok (some outerPackage)⟩ := by
  have hread : tree.readText "/m/a.go" = .ok outerSource := FileTree.readText_of_toUTF8 rfl
  have hin : isExcluded outerSource = false := by cbv
  have hparse : SourceFile.parse "/m/a.go" outerSource = .ok ⟨"/m/a.go", "p", [], []⟩ := by cbv
  rw [parsePackage_singleton hread hin hparse]
  rfl

theorem parsePackage_inner {root : String} :
    parsePackage tree (some ⟨"m", "/m"⟩) root ⟨"/m/sub", ["/m/sub/b.go"]⟩ =
      ⟨[], .ok (some innerPackage)⟩ := by
  have hread : tree.readText "/m/sub/b.go" = .ok innerSource := FileTree.readText_of_toUTF8 rfl
  have hin : isExcluded innerSource = false := by cbv
  have hparse : SourceFile.parse "/m/sub/b.go" innerSource = .ok ⟨"/m/sub/b.go", "q", [], []⟩ := by
    cbv
  rw [parsePackage_singleton hread hin hparse]
  rfl

theorem load_outer : (load tree "/m").result = .ok (.ofSources [outerPackage, innerPackage]) := by
  have hfiles : sourceFiles tree "/m" =
      .ok [⟨"/m", ["/m/a.go"]⟩, ⟨"/m/sub", ["/m/sub/b.go"]⟩] := by rfl
  simp only [load, findModule_outer, hfiles, Reported.ofExcept_ok_bind, parsePackages,
    parsePackage_outer, parsePackage_inner]
  rfl

theorem load_inner : (load tree "/m/sub").result = .ok (.ofSources [innerPackage]) := by
  have hfiles : sourceFiles tree "/m/sub" = .ok [⟨"/m/sub", ["/m/sub/b.go"]⟩] := by rfl
  simp only [load, findModule_inner, hfiles, Reported.ofExcept_ok_bind, parsePackages,
    parsePackage_inner]
  rfl

theorem governedFrom_outer : tree.GovernedFrom "/m" ["m", "go.mod"] := ⟨_, findModule_outer, by rfl⟩

theorem governedFrom_inner : tree.GovernedFrom "/m/sub" ["m", "go.mod"] :=
  ⟨_, findModule_inner, by rfl⟩

end TwoRoots

/-- The package in the inner directory is found from both roots. -/
theorem importPaths_identify_nested :
    TwoRoots.tree.IsTree ∧ TwoRoots.tree.Linkless ∧
      (load TwoRoots.tree "/m").result =
        .ok (.ofSources [TwoRoots.outerPackage, TwoRoots.innerPackage]) ∧
      (load TwoRoots.tree "/m/sub").result = .ok (.ofSources [TwoRoots.innerPackage]) ∧
      TwoRoots.tree.GovernedFrom "/m" ["m", "go.mod"] ∧
      TwoRoots.tree.GovernedFrom "/m/sub" ["m", "go.mod"] ∧
      TwoRoots.outerPackage.path ≠ TwoRoots.innerPackage.path ∧ TwoRoots.outerPackage.path ≠ "" ∧
      ∀ p ∈ (Load.ofSources [TwoRoots.outerPackage, TwoRoots.innerPackage]).packages,
        TwoRoots.tree.find true p.source.dir = .ok ["m", "sub"] →
          p.source.path = TwoRoots.innerPackage.path := by
  have ht : TwoRoots.tree.IsTree := by decide +kernel
  have hlinks : TwoRoots.tree.Linkless := by decide
  obtain ⟨hdifferent, hnonempty, hboth⟩ := importPaths_identify ht hlinks TwoRoots.load_outer
  refine ⟨ht, hlinks, TwoRoots.load_outer, TwoRoots.load_inner, TwoRoots.governedFrom_outer,
    TwoRoots.governedFrom_inner, ?_, ?_, ?_⟩
  · exact ((List.pairwise_cons.1 hdifferent).1 _ List.mem_cons_self).2
  · exact (hnonempty _ List.mem_cons_self).1
  · intro p hp hdir
    exact hboth "/m/sub" _ _ TwoRoots.load_inner TwoRoots.governedFrom_outer
      TwoRoots.governedFrom_inner (by decide) (by decide) p hp _ List.mem_cons_self _ hdir (by rfl)

end ResetMethods

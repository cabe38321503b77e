import Mathlib
import ResetMethods.Proofs.Layout.Settled
import ResetMethods.Proofs.Loading.Sources

/-!
# ResetMethods.Proofs.Loading.Grouping

Which files the packages of a load have.

* `filesByDirectory_perm`: each listed file is in one group.
* `parent?_of_mem_directoriesBelow`: the group is that of the directory that the file is in.
* `paths_parseFiles`, `parsePackages_ok`: of the files of a directory its package has those that do not
  opt out.
* `load_eligible`: so a load depends on its source files only, and each of them that does not opt out
  is in one package, that of its directory.
-/

namespace ResetMethods

/-! ## Files by directory -/

/-- An element that is put behind those of its key is one more element. -/
theorem Dict.insertEntry_push_perm {κ α : Type} [Ord κ] [Std.TransOrd κ] [Std.LawfulEqOrd κ]
    [DecidableEq κ] {l : List (κ × List α)} (hl : l.Pairwise fun a b => compare a.1 b.1 = .lt) (k : κ)
    (x : α) :
    ((insertEntry k ((l.lookup k).getD [] ++ [x]) l).flatMap (·.2)).Perm
      (l.flatMap (·.2) ++ [x]) := by
  induction l with
  | nil => exact .refl _
  | cons head rest ih =>
    obtain ⟨hhead, hrest⟩ := List.pairwise_cons.1 hl
    obtain ⟨k', xs⟩ := head
    rw [insertEntry]
    cases hcompare : compare k k' with
    | lt =>
      -- the key is less than all keys of the list, so it is none of them
      have hbehind : ∀ e ∈ (k', xs) :: rest, compare k e.1 = .lt := by
        intro e he
        rcases List.mem_cons.1 he with rfl | he
        · exact hcompare
        · exact Std.TransCmp.lt_trans hcompare (hhead e he)
      have hnone : ((k', xs) :: rest).lookup k = none := by
        refine List.lookup_eq_none_iff.2 fun e he => bne_iff_ne.2 ?_
        rintro rfl
        exact not_lt_self e.1 (hbehind e he)
      rw [hnone]
      exact (List.perm_append_singleton x _).symm
    | eq =>
      obtain rfl := Std.LawfulEqCmp.eq_of_compare hcompare
      rw [List.lookup_cons_self, Option.getD_some]
      simp only [List.flatMap_cons, List.append_assoc]
      exact List.perm_append_comm.append_left xs
    | gt =>
      have hne : (k == k') = false := by
        rw [beq_eq_false_iff_ne]
        rintro rfl
        have hself : compare k k = .eq := Std.ReflCmp.compare_self
        rw [hself] at hcompare
        cases hcompare
      rw [List.lookup_cons, hne]
      simp only [List.flatMap_cons, List.append_assoc]
      exact (ih hrest).append_left xs

theorem foldl_addFile_perm (sources : List Location) (files : Dict Location (List Location)) :
    ((sources.foldl addFile files).entries.flatMap (·.2)).Perm
      (files.entries.flatMap (·.2) ++ sources) := by
  induction sources generalizing files with
  | nil => simp
  | cons names rest ih =>
    have hadd : ((addFile files names).entries.flatMap (·.2)).Perm
        (files.entries.flatMap (·.2) ++ [names]) :=
      Dict.insertEntry_push_perm files.sorted names.dropLast names
    refine (ih (addFile files names)).trans ?_
    exact (hadd.append_right rest).trans (.of_eq (List.append_assoc _ _ _))

theorem filesByDirectory_perm (t : FileTree) (l : Location) :
    ((filesByDirectory t l).flatMap (·.2)).Perm (t.sourcesBelow l) := by
  have hperm := foldl_addFile_perm (t.sourcesBelow l) .empty
  exact hperm

theorem files_directoriesBelow (t : FileTree) (root : String) (l : Location) :
    ((directoriesBelow t root l).flatMap (·.files)).Perm
      ((t.sourcesBelow l).map (Path.joinAll root)) := by
  have hfiles : (directoriesBelow t root l).flatMap (·.files) =
      ((filesByDirectory t l).flatMap (·.2)).map (Path.joinAll root) := by
    rw [directoriesBelow, List.flatMap_map, List.map_flatMap]
    rfl
  rw [hfiles]
  exact (filesByDirectory_perm t l).map _

/-- The directory of a path behind a base depends on the base only. -/
theorem Path.parent?_join {name : String} (h : IsName name) (base : String) :
    parent? (join base name) = some (ofReversed ((segments base).reverse.dropWhile isIdle)) := by
  obtain ⟨front, tail, hbase, htail, hjoin⟩ := segments_join h base
  have hidle : ∀ s ∈ tail.reverse, isIdle s = true := fun s hs => htail s (List.mem_reverse.1 hs)
  rw [parent?, hjoin, List.reverse_concat, parents, h.not_idle, hbase, List.reverse_append,
    List.dropWhile_append_of_pos hidle]
  rfl

section Below

variable {t : FileTree} {root path : String} {l names : Location} {contents : ByteArray}

theorem parent?_of_hasSource (ht : t.IsTree) (h : t.HasSource l names contents) :
    Path.parent? (Path.joinAll root names) = some (Path.ofReversed
      ((Path.segments (Path.joinAll root names.dropLast)).reverse.dropWhile Path.isIdle)) := by
  obtain ⟨mode, hget⟩ := h.file
  obtain ⟨dir, name, rfl⟩ : ∃ dir name, names = dir ++ [name] :=
    ⟨_, _, (List.dropLast_concat_getLast h.ne_nil).symm⟩
  have hname : IsName name := ht.names _ _ hget name (by simp)
  rw [Path.joinAll, List.foldl_concat, List.dropLast_concat]
  exact Path.parent?_join hname _

/-- The directory of a group is the one that each file of the group is in. -/
theorem parent?_of_mem_directoriesBelow (ht : t.IsTree) {d : SourceDirectory}
    (hd : d ∈ directoriesBelow t root l) (hpath : path ∈ d.files) :
    Path.parent? path = some d.dir := by
  obtain ⟨⟨dir, files⟩, hfiles, rfl⟩ := List.mem_map.1 hd
  obtain ⟨names, hnames, rfl⟩ := List.mem_map.1 hpath
  have hparent : ∀ names ∈ files, Path.parent? (Path.joinAll root names) = some (Path.ofReversed
      ((Path.segments (Path.joinAll root dir)).reverse.dropWhile Path.isIdle)) := by
    intro names hnames
    obtain ⟨hlisted, hdir⟩ := mem_filesByDirectory hfiles hnames
    obtain ⟨contents, hsource⟩ := FileTree.mem_sourcesBelow_iff.1 hlisted
    rw [← show names.dropLast = dir from hdir]
    exact parent?_of_hasSource ht hsource
  cases files with
  | nil => cases hnames
  | cons first rest =>
    rw [hparent names hnames]
    simp only [SourceDirectory.ofFiles, List.map_cons, List.head?_cons, Option.bind_some,
      hparent first List.mem_cons_self, Option.getD_some]

/-- Different names lead to different paths. -/
theorem FileTree.IsDirectoryAt.nodup_paths (h : t.IsDirectoryAt root l) (ht : t.IsTree) :
    ((t.sourcesBelow l).map (Path.joinAll root)).Nodup := by
  refine (Dict.nodup_of_sorted (f := id) (t.sorted_sourcesBelow l)).map_on ?_
  intro names hnames names' hnames' hpath
  obtain ⟨contents, hsource⟩ := mem_sourcesBelow_iff.1 hnames
  obtain ⟨contents', hsource'⟩ := mem_sourcesBelow_iff.1 hnames'
  have hplace := h.locate_source ht hsource
  rw [hpath, h.locate_source ht hsource'] at hplace
  cases List.append_cancel_left (Place.found.inj (Except.ok.inj hplace))
  rfl

end Below

/-! ## Packages -/

/-- Whether the file at a path opts out of every build. -/
def FileTree.optsOut (t : FileTree) (path : String) : Bool :=
  match t.readText path with
  | .ok text => isExcluded text
  | .error _ => false

/-- The files of a directory that do not opt out. -/
def SourceDirectory.kept (t : FileTree) (d : SourceDirectory) : List String :=
  d.files.filter fun path => !t.optsOut path

section Parse

variable {t : FileTree} {module? : Option SourceModule} {root dir : String}

theorem SourceFile.path_parse {path text : String} {file : SourceFile}
    (h : SourceFile.parse path text = .ok file) : file.path = path := by
  unfold parse at h
  split at h
  · cases h
  · split at h
    · cases h
    · cases h
      rfl

theorem paths_parseFiles {paths : List String} {package : Option String} {files : List SourceFile}
    (h : (parseFiles t dir package paths).result = .ok files) :
    files.map (·.path) = paths.filter fun path => !t.optsOut path := by
  induction paths generalizing package files with
  | nil =>
    cases h
    rfl
  | cons path rest ih =>
    rw [parseFiles] at h
    cases hread : t.readText path with
    | error cause =>
      rw [hread] at h
      cases h
    | ok text =>
      have houts : t.optsOut path = isExcluded text := by
        rw [FileTree.optsOut, hread]
      rw [hread] at h
      cases hexcluded : isExcluded text with
      | true =>
        simp only [hexcluded] at h
        obtain ⟨-, -, hrest⟩ := Reported.bind_eq_ok h
        rw [List.filter_cons_of_neg (by simp [houts, hexcluded])]
        exact ih hrest
      | false =>
        simp only [hexcluded] at h
        obtain ⟨file, hfile, hrest⟩ := Reported.bind_eq_ok h
        rw [List.filter_cons_of_pos (by simp [houts, hexcluded])]
        split at hrest
        · obtain ⟨others, hothers, hfiles⟩ := Reported.bind_eq_ok hrest
          cases hfiles
          rw [List.map_cons, SourceFile.path_parse hfile, ih hothers]
        · cases hrest

theorem parsePackage_ok {d : SourceDirectory} {package? : Option SourcePackage}
    (h : (parsePackage t module? root d).result = .ok package?) :
    package?.toList.flatMap (·.files) = d.kept t ∧
      ∀ source ∈ package?.toList, source.dir = d.dir ∧ source.files = d.kept t := by
  obtain ⟨files, hfiles, hpackage⟩ := Reported.bind_eq_ok h
  have hpaths : files.map (·.path) = d.kept t := paths_parseFiles hfiles
  cases files with
  | nil =>
    cases hpackage
    rw [← hpaths]
    simp
  | cons first rest =>
    cases hpackage
    rw [← hpaths]
    simp

theorem parsePackages_ok {dirs : List SourceDirectory} {sources : List SourcePackage}
    (h : (parsePackages t module? root dirs).result = .ok sources) :
    sources.flatMap (·.files) = dirs.flatMap (·.kept t) ∧
      ∀ source ∈ sources, ∃ d ∈ dirs, source.dir = d.dir ∧ source.files = d.kept t := by
  induction dirs generalizing sources with
  | nil =>
    cases h
    simp
  | cons d rest ih =>
    obtain ⟨package?, hpackage, h⟩ := Reported.bind_eq_ok h
    obtain ⟨others, hothers, h⟩ := Reported.bind_eq_ok h
    cases h
    obtain ⟨hfiles, hdir⟩ := parsePackage_ok hpackage
    obtain ⟨hfilesRest, hdirRest⟩ := ih hothers
    refine ⟨by rw [List.flatMap_append, List.flatMap_cons, hfiles, hfilesRest], ?_⟩
    intro source hsource
    rcases List.mem_append.1 hsource with hsource | hsource
    · exact ⟨d, List.mem_cons_self, hdir source hsource⟩
    · obtain ⟨d', hd', hsame⟩ := hdirRest source hsource
      exact ⟨d', List.mem_cons_of_mem _ hd', hsame⟩

end Parse

/-! ## Loads -/

section Loads

variable {t u : FileTree} {root : String} {l m : Location}

/-- The packages of a load have the source files that do not opt out, each one once, and each package
has those of its directory. -/
theorem FileTree.IsDirectoryAt.files_of_load (h : t.IsDirectoryAt root l) (ht : t.IsTree)
    {loaded : Load} (hload : (load t root).result = .ok loaded) :
    (loaded.packages.flatMap (·.source.files)).Perm
        (((t.sourcesBelow l).map (Path.joinAll root)).filter fun path => !t.optsOut path) ∧
      ∀ package ∈ loaded.packages, ∀ path ∈ package.source.files,
        Path.parent? path = some package.source.dir := by
  obtain ⟨module?, -, hload⟩ := Reported.bind_eq_ok hload
  obtain ⟨dirs, hfound, hload⟩ := Reported.bind_eq_ok hload
  have hfound : sourceFiles t root = .ok dirs := hfound
  rw [h.sourceFiles_eq] at hfound
  cases hfound
  obtain ⟨sources, hsources, hload⟩ := Reported.bind_eq_ok hload
  obtain ⟨-, -, hload⟩ := Reported.bind_eq_ok hload
  cases hload
  obtain ⟨hfiles, hdirs⟩ := parsePackages_ok hsources
  constructor
  · have hall : (Load.ofSources sources).packages.flatMap (·.source.files) =
        ((directoriesBelow t root l).flatMap (·.files)).filter fun path => !t.optsOut path := by
      rw [Load.ofSources, List.flatMap_map, List.filter_flatMap]
      exact hfiles
    rw [hall]
    exact (files_directoriesBelow t root l).filter _
  · intro package hpackage path hpath
    obtain ⟨source, hsource, rfl⟩ := List.mem_map.1 hpackage
    obtain ⟨d, hd, hdir, hkept⟩ := hdirs source hsource
    have hpath : path ∈ source.files := hpath
    rw [hkept] at hpath
    rw [show source.dir = d.dir from hdir]
    exact parent?_of_mem_directoriesBelow ht hd (List.mem_of_mem_filter hpath)

theorem FileTree.IsDirectoryAt.optsOut_eq_false (h : t.IsDirectoryAt root l) (ht : t.IsTree)
    {names : Location} {contents : ByteArray} (hsource : t.HasSource l names contents)
    (hin : ∀ text, String.fromUTF8? contents = some text → isExcluded text = false) :
    t.optsOut (Path.joinAll root names) = false := by
  rw [optsOut, h.readText_source ht hsource, textOf]
  cases htext : String.fromUTF8? contents with
  | none => rfl
  | some text => exact hin text htext

/-- A load depends on the nearest module file and on the source files below the root only: on nothing
in ignored directories, on no other files, and on no modes. Where it succeeds, each source file that
does not opt out is in one package, once, and that is the package of its directory. -/
theorem load_eligible (ht : t.IsTree) (hu : u.IsTree) (hl : t.IsDirectoryAt root l)
    (hm : u.IsDirectoryAt root m)
    (hmanifest : t.nearestManifest (Path.ancestors root) = u.nearestManifest (Path.ancestors root))
    (hsources : ∀ names contents, t.HasSource l names contents ↔ u.HasSource m names contents) :
    load t root = load u root ∧
      ∀ loaded, (load t root).result = .ok loaded →
        ∀ names contents, t.HasSource l names contents →
          (∀ text, String.fromUTF8? contents = some text → isExcluded text = false) →
          let path := Path.joinAll root names
          (loaded.packages.flatMap (·.source.files)).count path = 1 ∧
            ∃ package ∈ loaded.packages, path ∈ package.source.files ∧
              Path.parent? path = some package.source.dir := by
  refine ⟨load_congr ht hu hl hm hmanifest hsources, ?_⟩
  intro loaded hload names contents hsource hin path
  obtain ⟨hperm, hparent⟩ := hl.files_of_load ht hload
  have hmem : path ∈ (t.sourcesBelow l).map (Path.joinAll root) :=
    List.mem_map_of_mem (FileTree.mem_sourcesBelow_iff.2 ⟨contents, hsource⟩)
  have hkept : (!t.optsOut path) = true := by
    rw [hl.optsOut_eq_false ht hsource hin]
    rfl
  have hcount : (loaded.packages.flatMap (·.source.files)).count path = 1 := by
    rw [hperm.count_eq, List.count_filter (p := fun path => !t.optsOut path) hkept]
    exact List.count_eq_one_of_mem (hl.nodup_paths ht) hmem
  refine ⟨hcount, ?_⟩
  obtain ⟨package, hpackage, hpath⟩ := List.mem_flatMap.1
    (List.count_pos_iff.1 (by omega : 0 < (loaded.packages.flatMap (·.source.files)).count path))
  exact ⟨package, hpackage, hpath, hparent package hpackage path hpath⟩

end Loads

/-! ## A directory with and without files that do not count -/

namespace Cluttered

def source : String := "package p\n"

def file : SourceFile := ⟨"/m/a.go", "p", [], []⟩

def bare : FileTree :=
  .ofList [(["m"], .directory 0o755), (["m", "a.go"], .file source.toUTF8 0o644)]

/-- The same source file with other permission bits, among a test file, a generated file, and files in
ignored directories. -/
def cluttered : FileTree :=
  .ofList [(["m"], .directory 0o700), (["m", "a.go"], .file source.toUTF8 0o600),
    (["m", "a_test.go"], .file "package q\n".toUTF8 0o644),
    (["m", "reset.gen.go"], .file "package r\n".toUTF8 0o644),
    (["m", "vendor"], .directory 0o755), (["m", "vendor", "v.go"], .file "".toUTF8 0o644),
    (["m", "x.go"], .link "a.go")]

theorem hasSource_iff {t : FileTree} {mode : Nat} (hbelow : t.sourcesBelow ["m"] = [["a.go"]])
    (hfile : t.get? ["m", "a.go"] = some (.file source.toUTF8 mode)) (names : Location)
    (contents : ByteArray) :
    t.HasSource ["m"] names contents ↔ names = ["a.go"] ∧ contents = source.toUTF8 := by
  have hcontents : ∀ {contents}, t.HasSource ["m"] ["a.go"] contents → contents = source.toUTF8 := by
    intro contents h
    obtain ⟨mode, hget⟩ := h.file
    cases hfile.symm.trans hget
    rfl
  have hlisted : ["a.go"] ∈ t.sourcesBelow ["m"] := by
    rw [hbelow]
    exact List.mem_singleton_self _
  constructor
  · intro h
    have hnames : names ∈ t.sourcesBelow ["m"] := FileTree.mem_sourcesBelow_iff.2 ⟨contents, h⟩
    rw [hbelow, List.mem_singleton] at hnames
    subst hnames
    exact ⟨rfl, hcontents h⟩
  · rintro ⟨rfl, rfl⟩
    obtain ⟨contents, h⟩ := FileTree.mem_sourcesBelow_iff.1 hlisted
    rwa [hcontents h] at h

theorem hasSource_congr (names : Location) (contents : ByteArray) :
    bare.HasSource ["m"] names contents ↔ cluttered.HasSource ["m"] names contents :=
  (hasSource_iff rfl rfl names contents).trans (hasSource_iff rfl rfl names contents).symm

theorem isDirectoryAt_bare : bare.IsDirectoryAt "/m" ["m"] := ⟨by rfl, _, by rfl⟩

theorem isDirectoryAt_cluttered : cluttered.IsDirectoryAt "/m" ["m"] := ⟨by rfl, _, by rfl⟩

theorem isExcluded_eq : isExcluded source = false := by cbv

theorem load_bare :
    (load bare "/m").result = .ok (.ofSources [⟨"p", ".", "/m", ["/m/a.go"], [file]⟩]) := by
  have hmodule : findModule bare "/m" = .ok none := by rfl
  have hfiles : sourceFiles bare "/m" = .ok [⟨"/m", ["/m/a.go"]⟩] := by rfl
  have hread : bare.lookup true "/m/a.go" = .ok (.file source.toUTF8 0o644) := by rfl
  have htext : bare.readText "/m/a.go" = .ok source := by
    simp only [FileTree.readText, FileTree.readBytes, hread, Layout.fromUTF8?_toUTF8]
  have hparse : SourceFile.parse "/m/a.go" source = .ok file := by cbv
  have hpath : importPath none "/m" "/m" = "." := by rfl
  simp only [load, hmodule, hfiles, parsePackages, parsePackage, parseFiles, htext, isExcluded_eq,
    hparse, Reported.ofExcept_ok_bind, hpath, Option.getD_none, if_true]
  rfl

end Cluttered

theorem load_eligible_cluttered :
    Cluttered.bare.IsTree ∧ Cluttered.cluttered.IsTree ∧
      Cluttered.bare.IsDirectoryAt "/m" ["m"] ∧ Cluttered.cluttered.IsDirectoryAt "/m" ["m"] ∧
      Cluttered.bare.nearestManifest (Path.ancestors "/m") =
        Cluttered.cluttered.nearestManifest (Path.ancestors "/m") ∧
      (∀ names contents, Cluttered.bare.HasSource ["m"] names contents ↔
        Cluttered.cluttered.HasSource ["m"] names contents) ∧
      load Cluttered.bare "/m" = load Cluttered.cluttered "/m" ∧
      ∃ loaded, (load Cluttered.bare "/m").result = .ok loaded ∧
        (loaded.packages.flatMap (·.source.files)).count "/m/a.go" = 1 := by
  have hbare : Cluttered.bare.IsTree := by decide +kernel
  have hcluttered : Cluttered.cluttered.IsTree := by decide +kernel
  have hmanifest : Cluttered.bare.nearestManifest (Path.ancestors "/m") =
      Cluttered.cluttered.nearestManifest (Path.ancestors "/m") := by rfl
  have hsource : Cluttered.bare.HasSource ["m"] ["a.go"] Cluttered.source.toUTF8 :=
    (Cluttered.hasSource_iff rfl rfl _ _).2 ⟨rfl, rfl⟩
  have hin : ∀ text, String.fromUTF8? Cluttered.source.toUTF8 = some text →
      isExcluded text = false := by
    intro text htext
    rw [Layout.fromUTF8?_toUTF8] at htext
    cases htext
    exact Cluttered.isExcluded_eq
  obtain ⟨hload, hfiles⟩ := load_eligible hbare hcluttered Cluttered.isDirectoryAt_bare
    Cluttered.isDirectoryAt_cluttered hmanifest Cluttered.hasSource_congr
  exact ⟨hbare, hcluttered, Cluttered.isDirectoryAt_bare, Cluttered.isDirectoryAt_cluttered,
    hmanifest, Cluttered.hasSource_congr, hload, _, Cluttered.load_bare,
    (hfiles _ Cluttered.load_bare _ _ hsource hin).1⟩

end ResetMethods

import ResetMethods.Loading
import ResetMethods.Proofs.Files.Trees

/-!
# ResetMethods.Proofs.Loading.Sources

What is listed, and what a load depends on.

* `FileTree.HasSource`: a source file that is loaded, by the names that lead to it.
  `mem_sourcesBelow_iff`: these are the files that are listed.
* `sourcesBelow_congr`: they are listed in order, so two trees with the same source files list the
  same.
* `FileTree.nearestManifest`: the first module file on the way up. `moduleAmong_eq`: the module is read
  from it.
* `load_congr`: a load depends on the nearest module file and on the source files only.
-/

namespace ResetMethods

/-! ## Reports -/

namespace Reported

variable {ε α β : Type} {x : Reported ε α} {f : α → Reported ε β} {b : β}

theorem bind_eq_ok (h : (x >>= f).result = .ok b) :
    ∃ a, x.result = .ok a ∧ (f a).result = .ok b := by
  obtain ⟨events, result⟩ := x
  cases result with
  | error e => cases h
  | ok a => exact ⟨a, rfl, h⟩

@[simp] theorem ofExcept_ok_bind (a : α) (f : α → Reported ε β) :
    (ofExcept (.ok a) >>= f) = f a := rfl

end Reported

/-! ## Source files -/

theorem isSourceName_outputName : isSourceName outputName = false := by decide +kernel

theorem sourceBelow?_eq_some_iff {names names' : Location} {entry : Entry} :
    sourceBelow? (names, entry) = some names' ↔
      names' = names ∧ (∃ contents mode, entry = .file contents mode) ∧
        names.getLast?.any isSourceName = true ∧ names.dropLast.any isIgnoredDirectory = false := by
  cases entry with
  | file contents mode =>
    rw [sourceBelow?]
    split
    · next hvisible hname => simp [hvisible, hname, eq_comm]
    · next hnot =>
      simp only [reduceCtorEq, false_iff]
      rintro ⟨-, -, hname, hvisible⟩
      exact hnot hvisible hname
  | directory mode => simp [sourceBelow?]
  | link target => simp [sourceBelow?]

/-- The text of a file with the contents. -/
def textOf (contents : ByteArray) : Except IoError String :=
  match String.fromUTF8? contents with
  | some text => .ok text
  | none => .error .invalidText

namespace FileTree

variable {t u : FileTree} {l m names : Location} {contents : ByteArray} {root : String}

/-- The source files below a location, as the names that lead there. -/
def sourcesBelow (t : FileTree) (l : Location) : List Location :=
  (t.below l).filterMap sourceBelow?

/-- The names lead from the location to a source file with the contents, through no directory that is
ignored. -/
structure HasSource (t : FileTree) (l names : Location) (contents : ByteArray) : Prop where
  file : ∃ mode, t.get? (l ++ names) = some (.file contents mode)
  name : names.getLast?.any isSourceName = true
  visible : names.dropLast.any isIgnoredDirectory = false

theorem HasSource.ne_nil (h : t.HasSource l names contents) : names ≠ [] := by
  rintro rfl
  cases h.name

/-- A file of the output name is no source file. -/
theorem HasSource.getLast?_ne (h : t.HasSource l names contents) :
    (l ++ names).getLast? ≠ some outputName := by
  rw [List.getLast?_append_of_ne_nil _ h.ne_nil]
  intro hlast
  have hname := h.name
  rw [hlast, Option.any_some, isSourceName_outputName] at hname
  cases hname

theorem mem_below_iff {entry : Entry} :
    (names, entry) ∈ t.below l ↔ names ≠ [] ∧ t.get? (l ++ names) = some entry := by
  constructor
  · intro h
    obtain ⟨⟨key, found⟩, hmem, hkey⟩ := List.mem_filterMap.1 h
    simp only at hkey
    split at hkey
    · next name rest hafter =>
      cases hkey
      obtain rfl := Text.after?_eq_some hafter
      exact ⟨List.cons_ne_nil _ _, Dict.mem_entries_iff.1 hmem⟩
    · cases hkey
  · rintro ⟨hne, hget⟩
    refine List.mem_filterMap.2 ⟨(l ++ names, entry), Dict.mem_entries_iff.2 hget, ?_⟩
    obtain ⟨name, rest, rfl⟩ := List.exists_cons_of_ne_nil hne
    simp only [Text.after?_append]

theorem mem_sourcesBelow_iff : names ∈ t.sourcesBelow l ↔ ∃ contents, t.HasSource l names contents := by
  constructor
  · intro h
    obtain ⟨⟨names', entry⟩, hmem, hsource⟩ := List.mem_filterMap.1 h
    obtain ⟨rfl, ⟨contents, mode, rfl⟩, hname, hvisible⟩ := sourceBelow?_eq_some_iff.1 hsource
    exact ⟨contents, ⟨mode, (mem_below_iff.1 hmem).2⟩, hname, hvisible⟩
  · rintro ⟨contents, h⟩
    obtain ⟨mode, hget⟩ := h.file
    exact List.mem_filterMap.2 ⟨(names, .file contents mode), mem_below_iff.2 ⟨h.ne_nil, hget⟩,
      sourceBelow?_eq_some_iff.2 ⟨rfl, ⟨contents, mode, rfl⟩, h.name, h.visible⟩⟩

theorem compare_append (l a b : Location) : compare (l ++ a) (l ++ b) = compare a b := by
  induction l with
  | nil => rfl
  | cons name rest ih =>
    have hself : compare name name = .eq := Std.ReflCmp.compare_self
    have hcons : compare (name :: (rest ++ a)) (name :: (rest ++ b)) =
        (compare name name).then (compare (rest ++ a) (rest ++ b)) := List.compareLex_cons_cons
    rw [List.cons_append, List.cons_append, hcons, hself, ih]
    rfl

theorem sorted_below (t : FileTree) (l : Location) :
    (t.below l).Pairwise fun a b => compare a.1 b.1 = .lt := by
  unfold below
  refine List.pairwise_filterMap.2 (t.sorted.imp fun {e₁ e₂} hlt b₁ h₁ b₂ h₂ => ?_)
  obtain ⟨k₁, entry₁⟩ := e₁
  obtain ⟨k₂, entry₂⟩ := e₂
  simp only at h₁ h₂ hlt
  split at h₁
  · next hafter₁ =>
    split at h₂
    · next hafter₂ =>
      cases h₁
      cases h₂
      rwa [Text.after?_eq_some hafter₁, Text.after?_eq_some hafter₂, compare_append] at hlt
    · cases h₂
  · cases h₁

/-- The source files are listed in the order of the names that lead to them. -/
theorem sorted_sourcesBelow (t : FileTree) (l : Location) :
    (t.sourcesBelow l).Pairwise fun a b => compare a b = .lt := by
  refine List.pairwise_filterMap.2 ((t.sorted_below l).imp fun {e₁ e₂} hlt b₁ h₁ b₂ h₂ => ?_)
  rwa [(sourceBelow?_eq_some_iff.1 h₁).1, (sourceBelow?_eq_some_iff.1 h₂).1]

theorem sourcesBelow_congr
    (h : ∀ names contents, t.HasSource l names contents ↔ u.HasSource m names contents) :
    t.sourcesBelow l = u.sourcesBelow m := by
  refine Dict.eq_of_mem_iff (f := id) (sorted_sourcesBelow t l) (sorted_sourcesBelow u m) ?_
  intro names
  rw [mem_sourcesBelow_iff, mem_sourcesBelow_iff]
  simp only [h]

theorem directoriesBelow_congr (h : t.sourcesBelow l = u.sourcesBelow m) (root : String) :
    directoriesBelow t root l = directoriesBelow u root m := by
  unfold sourcesBelow at h
  unfold directoriesBelow filesByDirectory
  rw [h]

/-! ## Reading -/

/-- The path leads to the location, where there is a directory and no link to one. -/
structure IsDirectoryAt (t : FileTree) (root : String) (l : Location) : Prop where
  found : t.find false root = .ok l
  directory : ∃ mode, t.entry? l = some (.directory mode)

theorem IsDirectoryAt.locate (h : t.IsDirectoryAt root l) :
    t.locate true root = .ok (.found l) := by
  obtain ⟨mode, hentry⟩ := h.directory
  exact locate_true_of_find h.found fun target hlink => by cases hentry.symm.trans hlink

theorem IsDirectoryAt.sourceFiles_eq (h : t.IsDirectoryAt root l) :
    sourceFiles t root = .ok (directoriesBelow t root l) := by
  obtain ⟨mode, hentry⟩ := h.directory
  simp only [sourceFiles, h.found, hentry]

theorem IsDirectoryAt.locate_source (h : t.IsDirectoryAt root l) (ht : t.IsTree)
    (hsource : t.HasSource l names contents) :
    t.locate true (Path.joinAll root names) = .ok (.found (l ++ names)) := by
  obtain ⟨mode, hget⟩ := hsource.file
  exact ht.locate_joinAll h.locate hget hsource.ne_nil

theorem readText_of_lookup {path : String} {mode : Nat}
    (h : t.lookup true path = .ok (.file contents mode)) : t.readText path = textOf contents := by
  have hbytes : t.readBytes path = .ok contents := by simp only [readBytes, h]
  unfold readText
  rw [hbytes]
  rfl

theorem IsDirectoryAt.readText_source (h : t.IsDirectoryAt root l) (ht : t.IsTree)
    (hsource : t.HasSource l names contents) :
    t.readText (Path.joinAll root names) = textOf contents := by
  obtain ⟨mode, hget⟩ := hsource.file
  have hentry : t.entry? (l ++ names) = some (.file contents mode) := by
    rw [entry?_of_ne_nil (by simp [hsource.ne_nil]), hget]
  have hlookup : t.lookup true (Path.joinAll root names) = .ok (.file contents mode) := by
    simp only [lookup, find, h.locate_source ht hsource, hentry]
  exact readText_of_lookup hlookup

/-! ## The module -/

/-- The first of some directories that has a module file, with the contents of the file. -/
def nearestManifest (t : FileTree) : List String → Option (String × ByteArray)
  | [] => none
  | dir :: rest =>
    match t.lookup true (Path.join dir manifestName) with
    | .ok (.file contents _) => some (dir, contents)
    | _ => t.nearestManifest rest

end FileTree

/-- The module that a module file gives. -/
def moduleOf : Option (String × ByteArray) → Except LoadError (Option SourceModule)
  | none => .ok none
  | some (dir, contents) =>
    match textOf contents with
    | .error cause => .error (.unreadable (Path.join dir manifestName) cause)
    | .ok text =>
      match modulePath? text with
      | some path => .ok (some ⟨path, dir⟩)
      | none => .error (.missingModule (Path.join dir manifestName))

theorem moduleAmong_eq (t : FileTree) (dirs : List String) :
    moduleAmong t dirs = moduleOf (t.nearestManifest dirs) := by
  induction dirs with
  | nil => rfl
  | cons dir rest ih =>
    cases hlookup : t.lookup true (Path.join dir manifestName) with
    | error e =>
      simp only [moduleAmong, FileTree.isFile, FileTree.nearestManifest, hlookup]
      exact ih
    | ok entry =>
      cases entry with
      | directory mode =>
        simp only [moduleAmong, FileTree.isFile, FileTree.nearestManifest, hlookup]
        exact ih
      | link target =>
        simp only [moduleAmong, FileTree.isFile, FileTree.nearestManifest, hlookup]
        exact ih
      | file contents mode =>
        have hfile : t.isFile (Path.join dir manifestName) = true := by
          simp only [FileTree.isFile, hlookup]
        rw [moduleAmong, if_pos hfile, FileTree.readText_of_lookup hlookup]
        unfold FileTree.nearestManifest
        rw [hlookup]
        rfl

/-! ## Loading -/

/-- The files of a group are listed files, and the group is that of their directory. -/
theorem mem_filesByDirectory {t : FileTree} {l names : Location} {e : Location × List Location}
    (he : e ∈ filesByDirectory t l) (hnames : names ∈ e.2) :
    names ∈ t.sourcesBelow l ∧ names.dropLast = e.1 := by
  -- what has been sorted in so far and what is still to come are among the listed files
  have hfold : ∀ (sources all : List Location) (files : Dict Location (List Location)),
      (∀ names ∈ sources, names ∈ all) →
      (∀ e ∈ files.entries, ∀ names ∈ e.2, names ∈ all ∧ names.dropLast = e.1) →
      ∀ e ∈ (sources.foldl addFile files).entries, ∀ names ∈ e.2,
        names ∈ all ∧ names.dropLast = e.1 := by
    intro sources all
    induction sources with
    | nil => exact fun _ _ hfiles => hfiles
    | cons source rest ih =>
      intro files hall hfiles
      obtain ⟨hsource, hrest⟩ := List.forall_mem_cons.1 hall
      refine ih _ hrest fun e he names hnames => ?_
      rcases Dict.mem_insertEntry he with rfl | hold
      · rcases List.mem_append.1 hnames with hnames | hnames
        · cases hget : files.get? source.dropLast with
          | none => simp [hget] at hnames
          | some earlier =>
            rw [hget, Option.getD_some] at hnames
            exact hfiles _ (Dict.mem_entries_iff.2 hget) names hnames
        · rw [List.mem_singleton.1 hnames]
          exact ⟨hsource, rfl⟩
      · exact hfiles e hold names hnames
  have hempty : ∀ e ∈ (Dict.empty : Dict Location (List Location)).entries, ∀ names ∈ e.2,
      names ∈ t.sourcesBelow l ∧ names.dropLast = e.1 := by
    intro e he
    cases he
  exact hfold (t.sourcesBelow l) _ .empty (fun _ h => h) hempty e he names hnames

theorem mem_directoriesBelow {t : FileTree} {root path : String} {l : Location} {d : SourceDirectory}
    (hd : d ∈ directoriesBelow t root l) (hpath : path ∈ d.files) :
    ∃ names contents, t.HasSource l names contents ∧ path = Path.joinAll root names := by
  obtain ⟨⟨dir, files⟩, hfiles, rfl⟩ := List.mem_map.1 hd
  obtain ⟨names, hnames, rfl⟩ := List.mem_map.1 hpath
  obtain ⟨contents, h⟩ := FileTree.mem_sourcesBelow_iff.1 (mem_filesByDirectory hfiles hnames).1
  exact ⟨names, contents, h, rfl⟩

theorem parseFiles_congr {t u : FileTree} {files : List String}
    (h : ∀ path ∈ files, u.readText path = t.readText path) (dir : String)
    (package : Option String) : parseFiles u dir package files = parseFiles t dir package files := by
  induction files generalizing package with
  | nil => rfl
  | cons path rest ih =>
    obtain ⟨hpath, hrest⟩ := List.forall_mem_cons.1 h
    simp only [parseFiles, hpath, ih hrest]

theorem parsePackages_congr {t u : FileTree} {dirs : List SourceDirectory}
    (h : ∀ d ∈ dirs, ∀ path ∈ d.files, u.readText path = t.readText path)
    (module? : Option SourceModule) (root : String) :
    parsePackages u module? root dirs = parsePackages t module? root dirs := by
  induction dirs with
  | nil => rfl
  | cons d rest ih =>
    obtain ⟨hd, hrest⟩ := List.forall_mem_cons.1 h
    simp only [parsePackages, parsePackage, parseFiles_congr hd, ih hrest]

/-- Trees with the same nearest module file and the same source files are loaded alike, with the same
reports. -/
theorem load_congr {t u : FileTree} (ht : t.IsTree) (hu : u.IsTree) {root : String} {l m : Location}
    (hl : t.IsDirectoryAt root l) (hm : u.IsDirectoryAt root m)
    (hmanifest : t.nearestManifest (Path.ancestors root) = u.nearestManifest (Path.ancestors root))
    (hsources : ∀ names contents, t.HasSource l names contents ↔ u.HasSource m names contents) :
    load t root = load u root := by
  have hmodule : findModule t root = findModule u root := by
    rw [findModule, findModule, moduleAmong_eq, moduleAmong_eq, hmanifest]
  have hdirs := FileTree.directoriesBelow_congr (FileTree.sourcesBelow_congr hsources) root
  have htexts : ∀ d ∈ directoriesBelow u root m, ∀ path ∈ d.files,
      t.readText path = u.readText path := by
    intro d hd path hpath
    obtain ⟨names, contents, hsource, rfl⟩ := mem_directoriesBelow hd hpath
    rw [hl.readText_source ht ((hsources _ _).2 hsource), hm.readText_source hu hsource]
  simp only [load, hmodule, hl.sourceFiles_eq, hm.sourceFiles_eq, Reported.ofExcept_ok_bind, hdirs,
    parsePackages_congr htexts]

end ResetMethods

import ResetMethods.Proofs.Files.Rewriting
import ResetMethods.Proofs.Loading.Sources

/-!
# ResetMethods.Proofs.Runs.Reloading

Loading a tree again after output has been written to it.

* `FileTree.Regenerated`: files of the output name have been written, and no module file that is
  looked at (`manifestsTried`) leads to one of them.
* `Regenerated.findModule_eq`, `sourceFiles_eq`, `readText_eq`: the same module is found, the same
  source files are listed, and their texts are the same.
* `Regenerated.load_eq`: so the same is loaded, with the same reports.
-/

namespace ResetMethods

namespace FileTree

variable {t u : FileTree} {ls : List Location} {path root : String} {l : Location}

/-! ## Reading -/

/-- Where a path leads to none of the locations, it leads to the same entry, or nowhere. -/
theorem Rewritten.lookup_eq (h : Rewritten ls t u) (hpath : ∀ l ∈ ls, ¬ t.LeadsTo path l) :
    u.lookup true path = t.lookup true path ∨
      ∃ e e', t.lookup true path = .error e ∧ u.lookup true path = .error e' := by
  have hkeeps := h.locate_keeps true path
  unfold lookup find
  generalize hbefore : t.locate true path = before at hkeeps
  generalize hafter : u.locate true path = after at hkeeps
  cases hkeeps with
  | failed e e' => exact .inr ⟨e, e', rfl, rfl⟩
  | filled hl => exact absurd ⟨_, hbefore, rfl⟩ (hpath _ hl)
  | same _ =>
    left
    cases before with
    | error e => rfl
    | ok place =>
      cases place with
      | vacant l => rfl
      | found l =>
        have hl : l ∉ ls := fun hl => hpath l hl ⟨_, hbefore, rfl⟩
        simp only [h.entry?_eq hl]

theorem Rewritten.isFile_eq (h : Rewritten ls t u) (hpath : ∀ l ∈ ls, ¬ t.LeadsTo path l) :
    u.isFile path = t.isFile path := by
  unfold isFile
  rcases h.lookup_eq hpath with hsame | ⟨e, e', ht, hu⟩
  · rw [hsame]
  · rw [ht, hu]

theorem Rewritten.readText_eq (h : Rewritten ls t u) (hpath : ∀ l ∈ ls, ¬ t.LeadsTo path l)
    (hfile : t.isFile path = true) : u.readText path = t.readText path := by
  unfold readText readBytes
  rcases h.lookup_eq hpath with hsame | ⟨e, e', ht, hu⟩
  · rw [hsame]
  · rw [isFile, ht] at hfile
    cases hfile

theorem Rewritten.find_eq (h : Rewritten ls t u) {follow : Bool}
    (hfind : t.find follow path = .ok l) : u.find follow path = .ok l := by
  have hkeeps := h.locate_keeps follow path
  unfold find at hfind ⊢
  generalize t.locate follow path = before at hkeeps hfind
  generalize u.locate follow path = after at hkeeps
  cases hkeeps with
  | same _ => exact hfind
  | failed e e' => cases hfind
  | filled hl => cases hfind

end FileTree

/-! ## Where source files are -/

namespace FileTree

variable {t u : FileTree} {ls : List Location} {root : String}

/-- The path leads to a file whose name is not the output name. -/
def LeadsToSource (t : FileTree) (path : String) : Prop :=
  ∃ l contents mode, t.locate true path = .ok (.found l) ∧
    t.entry? l = some (.file contents mode) ∧ l.getLast? ≠ some outputName

theorem IsTree.directoriesBelow_lead (ht : t.IsTree) {l : Location}
    (hroot : t.locate true root = .ok (.found l)) {d : SourceDirectory}
    (hd : d ∈ directoriesBelow t root l) {path : String} (hpath : path ∈ d.files) :
    t.LeadsToSource path := by
  obtain ⟨names, contents, hsource, rfl⟩ := mem_directoriesBelow hd hpath
  obtain ⟨mode, hget⟩ := hsource.file
  refine ⟨l ++ names, contents, mode, ht.locate_joinAll hroot hget hsource.ne_nil, ?_,
    hsource.getLast?_ne⟩
  rw [entry?_of_ne_nil (by simp [hsource.ne_nil])]
  exact hget

/-- The paths of listed source files lead to source files. -/
theorem IsTree.sourceFiles_lead (ht : t.IsTree) {dirs : List SourceDirectory}
    (hdirs : sourceFiles t root = .ok dirs) {d : SourceDirectory} (hd : d ∈ dirs) {path : String}
    (hpath : path ∈ d.files) : t.LeadsToSource path := by
  unfold sourceFiles at hdirs
  cases hfind : t.find false root with
  | error e => simp [hfind] at hdirs
  | ok l =>
    have hfalse := locate_of_find hfind
    simp only [hfind] at hdirs
    cases hentry : t.entry? l with
    | none => exact absurd hentry (ht.entry?_of_found hfalse)
    | some entry =>
      -- the paths below start at the root, which is then followed through a link at its end
      have htrue : (∀ target, entry ≠ .link target) → t.locate true root = .ok (.found l) := by
        intro hlink
        refine locate_true_of_find hfind fun target htarget => hlink target ?_
        exact Option.some.inj (hentry.symm.trans htarget)
      cases entry with
      | directory mode =>
        simp only [hentry] at hdirs
        cases hdirs
        exact ht.directoriesBelow_lead (htrue (by simp)) hd hpath
      | link target =>
        simp only [hentry] at hdirs
        cases hfollow : t.find true root with
        | error e => simp [hfollow] at hdirs
        | ok l' =>
          simp only [hfollow] at hdirs
          split at hdirs <;> cases hdirs
          · exact ht.directoriesBelow_lead (locate_of_find hfollow) hd hpath
          · cases hd
      | file contents mode =>
        simp only [hentry] at hdirs
        split at hdirs <;> cases hdirs
        · next hname =>
          rw [List.mem_singleton.1 hd] at hpath
          rw [List.mem_singleton.1 hpath]
          obtain ⟨name, hfileName, hsource⟩ := (Option.any_eq_true _ _).1 hname
          have hup : name ≠ ".." := by
            rintro rfl
            revert hsource
            decide +kernel
          have hlast := locate_fileName hfalse hentry hfileName hup
          refine ⟨l, contents, mode, htrue (by simp), hentry, ?_⟩
          rintro houtput
          rw [houtput] at hlast
          cases hlast
          rw [isSourceName_outputName] at hsource
          cases hsource
        · cases hd

end FileTree

/-! ## Loading -/

namespace FileTree

/-- The module files that the search for a module looks at: the first that there is, and those before
it. -/
def manifestsTried (t : FileTree) : List String → List String
  | [] => []
  | dir :: rest =>
    let manifest := Path.join dir manifestName
    if t.isFile manifest then [manifest] else manifest :: t.manifestsTried rest

/-- Files of the output name have been written, and no module file that is looked at leads to one of
them. -/
structure Regenerated (ls : List Location) (root : String) (t u : FileTree) : Prop where
  tree : t.IsTree
  rewritten : Rewritten ls t u
  outputs : ∀ l ∈ ls, l.getLast? = some outputName
  manifests : ∀ manifest ∈ t.manifestsTried (Path.ancestors root), ∀ l ∈ ls,
    ¬ t.LeadsTo manifest l

namespace Regenerated

variable {t u : FileTree} {ls : List Location} {root : String}

theorem get?_eq (h : Regenerated ls root t u) (l : Location)
    (hl : ¬ l.getLast? = some outputName) : u.get? l = t.get? l :=
  h.rewritten.same l fun hmem => hl (h.outputs l hmem)

theorem findModule_eq (h : Regenerated ls root t u) : findModule u root = findModule t root := by
  have hamong : ∀ dirs : List String,
      (∀ manifest ∈ t.manifestsTried dirs, ∀ l ∈ ls, ¬ t.LeadsTo manifest l) →
      moduleAmong u dirs = moduleAmong t dirs := by
    intro dirs hdirs
    induction dirs with
    | nil => rfl
    | cons dir rest ih =>
      rw [manifestsTried] at hdirs
      split at hdirs
      · next hfile =>
        have hdir := hdirs _ List.mem_cons_self
        simp only [moduleAmong, h.rewritten.isFile_eq hdir, hfile, if_true,
          h.rewritten.readText_eq hdir hfile]
      · next hfile =>
        obtain ⟨hdir, hrest⟩ := List.forall_mem_cons.1 hdirs
        simp only [moduleAmong, h.rewritten.isFile_eq hdir, hfile, Bool.false_eq_true, if_false]
        exact ih hrest
  exact hamong _ h.manifests

theorem directoriesBelow_eq (h : Regenerated ls root t u) (l : Location) :
    directoriesBelow u root l = directoriesBelow t root l := by
  refine directoriesBelow_congr (sourcesBelow_congr fun names contents => ?_) root
  constructor
  · intro hsource
    obtain ⟨mode, hget⟩ := hsource.file
    rw [h.get?_eq _ hsource.getLast?_ne] at hget
    exact ⟨⟨mode, hget⟩, hsource.name, hsource.visible⟩
  · intro hsource
    obtain ⟨mode, hget⟩ := hsource.file
    rw [← h.get?_eq _ hsource.getLast?_ne] at hget
    exact ⟨⟨mode, hget⟩, hsource.name, hsource.visible⟩

/-- What a path leads to is as it was, or it was a file and is one. -/
theorem entry?_cases (h : Regenerated ls root t u) {follow : Bool} {path : String} {l : Location}
    (hfind : t.find follow path = .ok l) :
    u.entry? l = t.entry? l ∨ ∃ contents mode contents' mode',
      t.entry? l = some (.file contents mode) ∧ u.entry? l = some (.file contents' mode') := by
  by_cases hl : l ∈ ls
  · obtain ⟨contents', mode', hnew⟩ := h.rewritten.after l hl
    rcases h.rewritten.before l hl with hnone | ⟨contents, mode, hold⟩
    · exact absurd hnone (h.tree.entry?_of_found (locate_of_find hfind))
    · exact .inr ⟨contents, mode, contents', mode', hold, hnew⟩
  · exact .inl (h.rewritten.entry?_eq hl)

theorem sourceFiles_eq (h : Regenerated ls root t u) {dirs : List SourceDirectory}
    (hdirs : sourceFiles t root = .ok dirs) : sourceFiles u root = .ok dirs := by
  unfold sourceFiles at hdirs ⊢
  cases hfind : t.find false root with
  | error e => simp [hfind] at hdirs
  | ok l =>
    simp only [hfind] at hdirs
    simp only [h.rewritten.find_eq hfind, h.directoriesBelow_eq]
    rcases h.entry?_cases hfind with hsame | ⟨_, _, _, _, hold, hnew⟩
    · rw [hsame]
      cases hentry : t.entry? l with
      | none =>
        rw [hentry] at hdirs
        exact hdirs
      | some entry =>
        rw [hentry] at hdirs
        cases entry with
        | file contents mode => exact hdirs
        | directory mode => exact hdirs
        | link target =>
          simp only at hdirs ⊢
          cases hfollow : t.find true root with
          | error e => simp [hfollow] at hdirs
          | ok l' =>
            simp only [hfollow] at hdirs
            simp only [h.rewritten.find_eq hfollow]
            rcases h.entry?_cases hfollow with hsame | ⟨_, _, _, _, hold, hnew⟩
            · rw [hsame]
              exact hdirs
            · rw [hold] at hdirs
              rw [hnew]
              exact hdirs
    · rw [hold] at hdirs
      rw [hnew]
      exact hdirs

theorem readText_eq (h : Regenerated ls root t u) {path : String} (hpath : t.LeadsToSource path) :
    u.readText path = t.readText path := by
  obtain ⟨l, contents, mode, hplace, hentry, hlast⟩ := hpath
  refine h.rewritten.readText_eq ?_ ?_
  · rintro l' hl' ⟨place, hplace', rfl⟩
    rw [hplace] at hplace'
    cases hplace'
    exact hlast (h.outputs l hl')
  · simp only [isFile, lookup, find, hplace, hentry]

/-- What has been loaded is loaded again, with the same reports. -/
theorem load_eq (h : Regenerated ls root t u) {loaded : Load}
    (hload : (load t root).result = .ok loaded) : load u root = load t root := by
  obtain ⟨module?, hmodule, hrest⟩ := Reported.bind_eq_ok hload
  obtain ⟨dirs, hdirs, -⟩ := Reported.bind_eq_ok hrest
  have hdirs : sourceFiles t root = .ok dirs := hdirs
  -- the texts need to agree on the listed files only
  have hparse := parsePackages_congr (u := u) fun d hd path hpath =>
    h.readText_eq (h.tree.sourceFiles_lead hdirs hd hpath)
  simp only [load, h.findModule_eq, hdirs, h.sourceFiles_eq hdirs, Reported.ofExcept_ok_bind, hparse]

end Regenerated

end FileTree

end ResetMethods

import Mathlib
import ResetMethods.Proofs.Layout.Generated
import ResetMethods.Proofs.Runs.Ending
import ResetMethods.Proofs.Runs.Reloading

/-!
# ResetMethods.Proofs.Runs.Rerun

A run on disk, and the same run again.

* `Lands`: a package whose file is laid out and can be written at a location.
* `Emits.overwrite`: packages that are emitted have been written over the tree, each at its location.
  `emits_overwrite`: packages that land can be emitted.
* `run_again`: a run that succeeded can be done again. It succeeds with the same summary and leaves
  the tree as it is.
* `run_again_fails`: not so where the module file is a link to a file that is written.

The second run loads what the first one loaded (`Regenerated.load_eq`), so it emits the same packages.
They land on the files of the first run, and to write these again changes nothing
(`overwrite_overwrite`).
-/

namespace ResetMethods

open FileTree
open Text (closeBrace openBrace)

/-- Reading from and writing to a file tree, with the canonical layout. -/
def onDisk : Strategies FileTree := .onDisk canonicalFormatter

/-! ## Packages that are written -/

/-- The file of the package is laid out, and its path leads to the location, where it can be
written. -/
structure Lands (s : Surroundings) (t : FileTree) (e : Emission) (w : Location × ByteArray) :
    Prop where
  laidOut : Layout.canonicalBytes (e.package.generated s).text.toUTF8 = .ok e.contents
  contents : w.2 = e.contents
  writable : t.Writable e.path w.1

section Emitting

variable {s : Surroundings} {t u : FileTree} {es : List Emission} {e : Emission}
  {w : Location × ByteArray} {ws : List (Location × ByteArray)}

theorem layOut_onDisk (s : Surroundings) (package : LoadedPackage) (t : FileTree) :
    layOut onDisk s package t =
      (Layout.canonicalBytes (package.generated s).text.toUTF8, t) := rfl

theorem Lands.rewritten (h : Lands s t e w) {ls : List Location} (hre : Rewritten ls t u) :
    Lands s u e w :=
  ⟨h.laidOut, h.contents, hre.writable h.writable⟩

theorem Lands.emits (h : Lands s t e w)
    (hrest : Emits onDisk s (t.overwrite [w]) es u) : Emits onDisk s t (e :: es) u := by
  have hlayout : layOut onDisk s e.package t = (.ok e.contents, t) := by
    rw [layOut_onDisk, h.laidOut]
  have hwrite : onDisk.write e.path e.contents t = (.ok (), t.overwrite [w]) := by
    have hout := h.writable.writeOutput e.contents
    rw [← h.contents] at hout ⊢
    simp only [onDisk, Strategies.onDisk, treeWriter, hout]
    rfl
  exact .next hlayout hwrite hrest

theorem Emits.overwrite (h : Emits onDisk s t es u) :
    ∃ ws, u = t.overwrite ws ∧ Rewritten (ws.map (·.1)) t u ∧
      List.Forall₂ (Lands s u) es ws ∧
      ∀ w ∈ ws, ∃ e ∈ es, t.LeadsTo e.path w.1 := by
  induction h with
  | done => exact ⟨[], rfl, .refl _, .nil, by simp⟩
  | @next e rest first middle second last hlayout hwrite hrest ih =>
    obtain ⟨ws, rfl, hre, hlands, hleads⟩ := ih
    rw [layOut_onDisk, Prod.mk.injEq] at hlayout
    obtain ⟨hlaid, rfl⟩ := hlayout
    cases hout : first.writeOutput e.path e.contents with
    | error cause =>
      simp [onDisk, Strategies.onDisk, treeWriter, hout] at hwrite
    | ok written =>
      obtain ⟨l, hl⟩ := exists_writable hout
      have hsecond : second = first.overwrite [(l, e.contents)] := by
        have hsame := hl.writeOutput e.contents
        simp only [onDisk, Strategies.onDisk, treeWriter, hsame, Prod.mk.injEq, true_and] at hwrite
        exact hwrite.symm
      subst hsecond
      have hone : Rewritten [l] first (first.overwrite [(l, e.contents)]) :=
        hl.rewritten e.contents outputMode
      have hall := hone.trans hre
      refine ⟨(l, e.contents) :: ws, rfl, hall, .cons ?_ hlands, ?_⟩
      · exact ⟨hlaid, rfl, hall.writable hl⟩
      · refine List.forall_mem_cons.2 ⟨⟨e, List.mem_cons_self, hl.leadsTo⟩, fun w hw => ?_⟩
        obtain ⟨e', he', hlead⟩ := hleads w hw
        exact ⟨e', List.mem_cons_of_mem _ he', hone.leadsTo hlead⟩

theorem emits_overwrite (h : List.Forall₂ (Lands s t) es ws) :
    Emits onDisk s t es (t.overwrite ws) := by
  induction es generalizing t ws with
  | nil =>
    cases h
    exact .done
  | cons e es ih =>
    cases h with
    | @cons _ w _ ws hfirst hrest =>
      have hre : Rewritten [w.1] t (t.overwrite [w]) := hfirst.writable.rewritten w.2 outputMode
      exact hfirst.emits (ih (hrest.imp fun _ _ hland => hland.rewritten hre))

end Emitting

/-! ## Runs -/

section Run

variable {cwd root path : String} {tree : FileTree}

theorem isName_outputName : IsName outputName := ⟨by rfl, by decide, by decide⟩

/-- A path of an output leads to a location of that name. -/
theorem getLast?_of_output {dir : String} {l : Location}
    (hlinks : tree.Unlinked outputName)
    (h : tree.LeadsTo (Path.join dir outputName) l) : l.getLast? = some outputName := by
  obtain ⟨place, hplace, rfl⟩ := h
  obtain ⟨front, tail, -, -, hsegments⟩ := Path.segments_join isName_outputName dir
  refine locate_last isName_outputName (fun _ dir target => ?_) hsegments hplace
  rw [entry?_of_ne_nil (by simp)]
  exact hlinks dir target

/-- None of the module files that the search looks at leads to a file that is written. -/
def ManifestsApart (tree : FileTree) (cwd root : String) (writes : List (String × ByteArray)) :
    Prop :=
  ∀ path, Path.absolute cwd root = .ok path →
    ∀ manifest ∈ tree.manifestsTried (Path.ancestors path), ∀ write ∈ writes, ∀ l,
      tree.LeadsTo manifest l → ¬ tree.LeadsTo write.1 l

/-- A run on disk that succeeded succeeds again, with the same summary, and then leaves the tree as
it is: contents and permission bits. -/
theorem run_again (cwd root : String) (tree : FileTree) (summary : Summary) (htree : tree.IsTree)
    (hlinks : tree.Unlinked outputName)
    (hmanifests : ManifestsApart tree cwd root (run onDisk cwd root tree).writes)
    (hok : (run onDisk cwd root tree).result = .ok summary) :
    let last := (run onDisk cwd root tree).state
    (run onDisk cwd root last).result = .ok summary ∧ (run onDisk cwd root last).state = last := by
  have hending := runEnding_run onDisk cwd root tree
  rw [hok] at hending
  obtain ⟨path, load, es, last, hp, hl, hpackages, hemits⟩ := hending.nothingFails
  obtain ⟨hresult, hwrites, hstate⟩ := run_of_load hp hl
  obtain ⟨hresult', hwrites', hstate'⟩ := hemits.runPackages hpackages
  obtain ⟨ws, hlast, hre, hlands, hleads⟩ := hemits.overwrite
  -- the first run has written files of the output name, none of them a module file
  have hregenerated : Regenerated (ws.map (·.1)) path tree last := by
    refine ⟨htree, hre, fun l hl => ?_, fun manifest hmanifest l hl hlead => ?_⟩
    · obtain ⟨w, hw, rfl⟩ := List.mem_map.1 hl
      obtain ⟨e, -, hlead⟩ := hleads w hw
      exact getLast?_of_output hlinks hlead
    · obtain ⟨w, hw, rfl⟩ := List.mem_map.1 hl
      obtain ⟨e, he, hwrite⟩ := hleads w hw
      have hcall : e.call ∈ (run onDisk cwd root tree).writes := by
        rw [hwrites, hwrites']
        exact List.mem_map_of_mem he
      exact hmanifests path hp manifest hmanifest e.call hcall w.1 hlead hwrite
  have hload : (onDisk.load path last).result = .ok load := by
    rw [← hl]
    exact congrArg Reported.result (hregenerated.load_eq hl)
  -- all packages land again, on the same files with the same contents
  have hagain : Emits onDisk load.surroundings last es last := by
    have hemits' := emits_overwrite hlands
    have hsame : last.overwrite ws = last := by
      rw [hlast]
      exact overwrite_overwrite tree ws
    rwa [hsame] at hemits'
  obtain ⟨hresult₂, hwrites₂, hstate₂⟩ := run_of_load hp hload
  obtain ⟨hresult₂', -, hstate₂'⟩ := hagain.runPackages hpackages
  intro state
  have hlastState : state = last := by
    exact hstate.trans hstate'
  rw [hlastState, hresult₂, hstate₂, hresult₂', hstate₂', ← hok, hresult, hresult']
  exact ⟨rfl, rfl⟩

end Run

/-! ## Samples -/

namespace RerunSample

def source : String := "package p\n// generate:reset\ntype S struct{ X int }\n"

def file : SourceFile :=
  ⟨"/m/a.go", "p", [],
    [.types ⟨some ⟨[directive]⟩, false,
      [⟨none, "S", [], false, .struct [⟨["X"], .ident "int", none⟩], 3⟩]⟩]⟩

def sources : SourcePackage := ⟨"p", "m", "/m", ["/m/a.go"], [file]⟩

def package : LoadedPackage := ⟨sources, sources.definitions⟩

def loaded : Load := .ofSources [sources]

/-- A module with one package, and a file that an earlier run left with other permission bits. -/
def tree : FileTree :=
  .ofList [(["m"], .directory 0o755), (["m", "a.go"], .file source.toUTF8 0o644),
    (["m", "go.mod"], .file "module m\n".toUTF8 0o644),
    (["m", "reset.gen.go"], .file "package p\n".toUTF8 0o600)]

/-- The module file is a link to a file that is not there yet. -/
def linked : FileTree :=
  .ofList [(["go.mod"], .link "m/reset.gen.go"), (["m"], .directory 0o755),
    (["m", "a.go"], .file source.toUTF8 0o644)]

/-! ### What is loaded -/

theorem parse_eq : SourceFile.parse "/m/a.go" source = .ok file := by cbv

theorem isExcluded_eq : isExcluded source = false := by cbv

theorem load_eq {t : FileTree} {module? : Option SourceModule} {root : String}
    (hmodule : findModule t root = .ok module?)
    (hfiles : sourceFiles t root = .ok [⟨"/m", ["/m/a.go"]⟩])
    (hread : t.lookup true "/m/a.go" = .ok (.file source.toUTF8 0o644))
    (hpath : importPath module? root "/m" = "m") : (load t root).result = .ok loaded := by
  have htext : t.readText "/m/a.go" = .ok source := by
    simp only [readText, readBytes, hread, Layout.fromUTF8?_toUTF8]
  simp only [load, hmodule, hfiles, parsePackages, parsePackage, parseFiles, htext, isExcluded_eq,
    parse_eq, Reported.ofExcept_ok_bind, hpath, Option.getD_none, if_true]
  rfl

theorem load_of_error {t : FileTree} {root : String} {cause : LoadError}
    (hmodule : findModule t root = .error cause) : (load t root).result = .error cause := by
  simp only [load, hmodule]
  rfl

theorem readText_manifest : tree.readText "/m/go.mod" = .ok "module m\n" := by
  have hfile : tree.lookup true "/m/go.mod" = .ok (.file "module m\n".toUTF8 0o644) := by rfl
  simp only [readText, readBytes, hfile, Layout.fromUTF8?_toUTF8]

theorem findModule_tree : findModule tree "/m" = .ok (some ⟨"m", "/m"⟩) := by
  have hdirs : Path.ancestors "/m" = ["/m", "/"] := by rfl
  have hjoin : Path.join "/m" manifestName = "/m/go.mod" := by rfl
  have hfile : tree.isFile "/m/go.mod" = true := by rfl
  have hpath : modulePath? "module m\n" = some "m" := by rfl
  simp only [findModule, hdirs, moduleAmong, hjoin, hfile, readText_manifest, hpath, if_true]

theorem load_tree : (load tree "/m").result = .ok loaded :=
  load_eq findModule_tree rfl rfl rfl

theorem load_linked : (load linked "/").result = .ok loaded :=
  load_eq (show findModule linked "/" = .ok none by rfl) rfl rfl rfl

/-! ### What is generated -/

theorem methods_eq : package.methods loaded.surroundings =
    [⟨"obj", "S", [.assign ⟨"obj", "X", 0⟩ (.zero .int)]⟩] := by
  rfl

def text : String :=
  banner ++ "\n\npackage p\n\nfunc (obj *S) Reset() " ++ openBrace ++
    "\n\tif obj == nil " ++ openBrace ++ "\n\t\treturn\n\t" ++ closeBrace ++
    "\n\n\tobj.X = 0\n" ++ closeBrace ++ "\n"

theorem text_eq : (package.generated loaded.surroundings).text = text := by
  have haliases : package.aliases loaded.surroundings = package.noAliases := by
    rw [LoadedPackage.aliases, methods_eq]
    rfl
  rw [LoadedPackage.generated, methods_eq, haliases]
  rfl

theorem laidOut : Layout.canonicalBytes text.toUTF8 = .ok text.toUTF8 :=
  Layout.canonicalBytes_of_canonical (by decide +kernel)

theorem modulePath?_text : modulePath? text = none := by decide +kernel

def emission : Emission := ⟨package, text.toUTF8⟩

def output : Location := ["m", "reset.gen.go"]

def summary : Summary := ⟨[⟨"/m/reset.gen.go", "m", 1⟩]⟩

/-- What a run that loads the package does where the path of its file can be written. -/
theorem run_eq {t : FileTree} {root : String} (hroot : Path.absolute "/" root = .ok root)
    (hload : (load t root).result = .ok loaded) (hpath : t.Writable "/m/reset.gen.go" output) :
    (run onDisk "/" root t).result = .ok summary ∧
      (run onDisk "/" root t).writes = [("/m/reset.gen.go", text.toUTF8)] ∧
      (run onDisk "/" root t).state = t.overwrite [(output, text.toUTF8)] := by
  have houtput : emission.path = "/m/reset.gen.go" := by rfl
  have hemits : Emits onDisk loaded.surroundings t [emission]
      (t.overwrite [(output, text.toUTF8)]) := by
    refine emits_overwrite (.cons ⟨?_, rfl, ?_⟩ .nil)
    · rw [emission, text_eq]
      exact laidOut
    · rw [houtput]
      exact hpath
  have hemitted : loaded.packages.filter (·.isEmitted) = [emission].map (·.package) := by
    have hone : package.isEmitted = true := by rfl
    exact List.filter_cons_of_pos hone
  have hload : (onDisk.load root t).result = .ok loaded := hload
  obtain ⟨hresult, hwrites, hstate⟩ := run_of_load hroot hload
  obtain ⟨hresult', hwrites', hstate'⟩ := hemits.runPackages hemitted
  refine ⟨?_, ?_, hstate.trans hstate'⟩
  · rw [hresult, hresult']
    simp only [List.map_cons, List.map_nil, Emission.file, houtput]
    simp only [emission, LoadedPackage.generated, methods_eq]
    rfl
  · rw [hwrites, hwrites']
    simp only [List.map_cons, List.map_nil, Emission.call, houtput]
    rfl

/-! ### Trees -/

theorem isTree_tree : tree.IsTree := by decide

theorem isTree_linked : linked.IsTree := by decide +kernel

theorem unlinked_tree : tree.Unlinked outputName := by decide

theorem unlinked_linked : linked.Unlinked outputName := by decide

theorem writable_tree : tree.Writable "/m/reset.gen.go" output := by
  have hplace : tree.locate true "/m/reset.gen.go" = .ok (.found output) := by rfl
  have hentry : tree.entry? output = some (.file "package p\n".toUTF8 0o600) := by rfl
  exact .old hplace hentry

theorem writable_linked : linked.Writable "/m/reset.gen.go" output := by
  have hplace : linked.locate true "/m/reset.gen.go" = .ok (.vacant output) := by rfl
  exact .new hplace

theorem manifestsApart_tree : ManifestsApart tree "/" "/m" (run onDisk "/" "/m" tree).writes := by
  have hroot : Path.absolute "/" "/m" = .ok "/m" := by rfl
  have htried : tree.manifestsTried (Path.ancestors "/m") = ["/m/go.mod"] := by rfl
  have hmanifest : tree.locate true "/m/go.mod" = .ok (.found ["m", "go.mod"]) := by rfl
  have houtput : tree.locate true "/m/reset.gen.go" = .ok (.found output) := by rfl
  rw [(run_eq hroot load_tree writable_tree).2.1]
  intro path hpath manifest hm write hwrite l hlead hlead'
  rw [hroot] at hpath
  cases hpath
  rw [htried, List.mem_singleton] at hm
  rw [List.mem_singleton] at hwrite
  subst hm hwrite
  obtain ⟨place, hplace, rfl⟩ := hlead
  obtain ⟨place', hplace', hsame⟩ := hlead'
  rw [hmanifest] at hplace
  rw [houtput] at hplace'
  cases hplace
  cases hplace'
  revert hsame
  decide

theorem lookup_linked (contents : ByteArray) :
    (linked.overwrite [(output, contents)]).lookup true "/go.mod" =
      .ok (.file contents outputMode) := by
  rfl

theorem findModule_eq_error {t : FileTree} {contents : String} {mode : Nat}
    (hlookup : t.lookup true "/go.mod" = .ok (.file contents.toUTF8 mode))
    (hnone : modulePath? contents = none) : findModule t "/" = .error (.missingModule "/go.mod") := by
  have hdirs : Path.ancestors "/" = ["/"] := by rfl
  have hjoin : Path.join "/" manifestName = "/go.mod" := by rfl
  simp only [findModule, hdirs, moduleAmong, hjoin, isFile, readText, readBytes, hlookup,
    Layout.fromUTF8?_toUTF8, hnone, if_true]

/-- The file that has been written is taken for a module file. -/
theorem run_linked :
    (run onDisk "/" "/" (linked.overwrite [(output, text.toUTF8)])).result =
      .error (.load (.missingModule "/go.mod")) := by
  have hroot : Path.absolute "/" "/" = .ok "/" := by rfl
  have hmodule := findModule_eq_error (lookup_linked text.toUTF8) modulePath?_text
  have hload : (onDisk.load "/" (linked.overwrite [(output, text.toUTF8)])).result =
      .error (.missingModule "/go.mod") := load_of_error hmodule
  exact (run_of_unloaded hroot hload).1

end RerunSample

/-- A second run over a module whose file of an earlier run is overwritten. -/
theorem run_again_sample :
    RerunSample.tree.IsTree ∧
      RerunSample.tree.Unlinked outputName ∧
      ManifestsApart RerunSample.tree "/" "/m" (run onDisk "/" "/m" RerunSample.tree).writes ∧
      (run onDisk "/" "/m" RerunSample.tree).result = .ok RerunSample.summary ∧
      (let last := (run onDisk "/" "/m" RerunSample.tree).state
      (run onDisk "/" "/m" last).result = .ok RerunSample.summary ∧
        (run onDisk "/" "/m" last).state = last) := by
  have hroot : Path.absolute "/" "/m" = .ok "/m" := by rfl
  have hok := (RerunSample.run_eq hroot RerunSample.load_tree RerunSample.writable_tree).1
  refine ⟨RerunSample.isTree_tree, RerunSample.unlinked_tree, RerunSample.manifestsApart_tree, hok,
    ?_⟩
  exact run_again "/" "/m" RerunSample.tree RerunSample.summary RerunSample.isTree_tree
    RerunSample.unlinked_tree RerunSample.manifestsApart_tree hok

/-- The first run writes the file that the module file is a link to. The second one takes it for a
module file, and it names no module. -/
theorem run_again_fails :
    RerunSample.linked.IsTree ∧
      RerunSample.linked.Unlinked outputName ∧
      (run onDisk "/" "/" RerunSample.linked).result = .ok RerunSample.summary ∧
      (run onDisk "/" "/" (run onDisk "/" "/" RerunSample.linked).state).result =
        .error (.load (.missingModule "/go.mod")) := by
  have hroot : Path.absolute "/" "/" = .ok "/" := by rfl
  obtain ⟨hok, -, hstate⟩ :=
    RerunSample.run_eq hroot RerunSample.load_linked RerunSample.writable_linked
  refine ⟨RerunSample.isTree_linked, RerunSample.unlinked_linked, hok, ?_⟩
  rw [hstate]
  exact RerunSample.run_linked

end ResetMethods

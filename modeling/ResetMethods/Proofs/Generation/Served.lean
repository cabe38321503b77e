import Mathlib.Data.List.Forall2
import ResetMethods.Proofs.Generation.Targets
import ResetMethods.Proofs.Runs.Success
import ResetMethods.Proofs.Types.Scopes

/-!
# ResetMethods.Proofs.Generation.Served

Every target gets its method.

* `LoadedPackage.Reports`: what the work on a package may report. `reports_of_mem_events`: the work on
  some packages reports nothing else.
* `Event.leftOut?`: the target that a warning says gets no method. `exists_target_of_mem_events`: such
  a warning comes from a target that gets none.
* `SourcePackage.exists_gives`: a target gets a method if its package has a path of its own and
  declares the name once.
* `SourcePackage.IsServed`: a call of the writer holds the layout of a text with one method for each
  target that has a name.
* `run_serves`: where names are declared once, a successful run serves each package with targets, and
  warns of no target but the blank one.
-/

namespace ResetMethods

/-! ## Reports -/

/-- What the work on a package may report. -/
inductive LoadedPackage.Reports (package : LoadedPackage) (s : Surroundings) : Event → Prop where
  | skipped {event : Event} : package.skipEvent? = some event → package.Reports s event
  | leftOut {target : Target} {event : Event} : target ∈ package.targets →
      package.outcome s target = .error event → package.Reports s event
  | bound (path aliasName : String) : package.Reports s (.aliasBound path aliasName)
  | written (path : String) (methods : Nat) : package.Reports s (.methodsWritten path methods)

/-- The name of the target that a warning says gets no method. -/
def Event.leftOut? : Event → Option String
  | .targetNotFound name _ _ => some name
  | .targetNotStruct name => some name
  | _ => none

section Reports

variable {σ : Type} {strategies : Strategies σ} {s : Surroundings} {event : Event} {name : String}

namespace LoadedPackage

variable {package : LoadedPackage}

theorem reports_of_mem_outcomeEvents {view : Viewpoint} {aliases : AliasTable}
    {targets : List Target} (htargets : targets ⊆ package.targets)
    (h : event ∈ outcomeEvents view aliases (targets.map (package.outcome s))) :
    package.Reports s event := by
  induction targets generalizing aliases with
  | nil => cases h
  | cons target rest ih =>
    obtain ⟨htarget, hrest⟩ := List.cons_subset.1 htargets
    rw [List.map_cons] at h
    cases ho : package.outcome s target with
    | error first =>
      rw [ho, outcomeEvents] at h
      rcases List.mem_cons.1 h with rfl | h
      · exact .leftOut htarget ho
      · exact ih hrest h
    | ok method =>
      rw [ho, outcomeEvents] at h
      rcases List.mem_append.1 h with h | h
      · obtain ⟨b, -, rfl⟩ := List.mem_map.1 h
        exact .bound b.path b.aliasName
      · exact ih hrest h

theorem reports_of_mem_generationEvents (h : event ∈ package.generationEvents s) :
    package.Reports s event :=
  reports_of_mem_outcomeEvents (List.Subset.refl _) h

theorem skipEvent?_leftOut? (h : package.skipEvent? = some event) : event.leftOut? = none := by
  unfold skipEvent? at h
  split at h <;> cases h <;> rfl

/-- A warning of a target comes from what became of a target of that name. -/
theorem Reports.exists_outcome (h : package.Reports s event) (hname : event.leftOut? = some name) :
    ∃ target ∈ package.targets, target.name = name ∧ ∀ m, ¬ package.Gives s name m := by
  cases h with
  | skipped hskip => rw [skipEvent?_leftOut? hskip] at hname; cases hname
  | @leftOut target _ htarget ho =>
    have htargetName : target.name = name := by
      unfold outcome at ho
      split at ho
      · cases ho
        exact Option.some.inj hname
      · split at ho
        · cases ho
          exact Option.some.inj hname
        · cases ho
    subst htargetName
    refine ⟨target, htarget, rfl, fun m hm => ?_⟩
    rw [outcome_eq_ok_iff.2 hm] at ho
    cases ho
  | bound path aliasName => cases hname
  | written path methods => cases hname

end LoadedPackage

theorem reports_of_mem_events {packages : List LoadedPackage} {state : σ}
    (h : event ∈ (runPackages strategies s packages state).events) :
    ∃ package ∈ packages, package.Reports s event := by
  induction packages generalizing state with
  | nil => cases h
  | cons package rest ih =>
    have hrest : ∀ {state}, event ∈ (runPackages strategies s rest state).events →
        ∃ p ∈ package :: rest, p.Reports s event := by
      intro state h
      obtain ⟨other, hother, hevent⟩ := ih h
      exact ⟨other, List.mem_cons_of_mem _ hother, hevent⟩
    rw [runPackages] at h
    cases hskip : package.skipEvent? with
    | some skipped =>
      rw [hskip] at h
      rcases List.mem_cons.1 h with rfl | h
      · exact ⟨package, List.mem_cons_self, .skipped hskip⟩
      · exact hrest h
    | none =>
      rw [hskip] at h
      rcases List.mem_append.1 h with h | h
      · exact ⟨package, List.mem_cons_self, LoadedPackage.reports_of_mem_generationEvents h⟩
      · split at h
        · cases h
        · dsimp only [Outcome.afterWrite] at h
          split at h
          · cases h
          · rcases List.mem_cons.1 h with rfl | h
            · exact ⟨package, List.mem_cons_self, .written _ _⟩
            · exact hrest h

/-- A run warns of targets of its packages that get no method. -/
theorem exists_target_of_mem_events {load : Load} {state : σ}
    (h : event ∈ (runLoad strategies load state).events) (hname : event.leftOut? = some name) :
    ∃ package ∈ load.packages, ∃ target ∈ package.targets, target.name = name ∧
      ∀ m, ¬ package.Gives load.surroundings name m := by
  rcases List.mem_append.1 h with h | h
  · obtain ⟨package, -, h⟩ := List.mem_flatMap.1 h
    obtain ⟨spec, -, h⟩ := List.mem_filterMap.1 h
    split at h
    · cases h
    · cases h
      cases hname
  · obtain ⟨package, hpackage, hreports⟩ := reports_of_mem_events h
    exact ⟨package, hpackage, hreports.exists_outcome hname⟩

end Reports

/-! ## Methods -/

/-- The names of the targets of a package are declared once each, the blank one aside. -/
def SourcePackage.DeclaresTargetsOnce (source : SourcePackage) : Prop :=
  ∀ target ∈ source.loaded.targets, target.name ≠ "_" → source.DeclaresOnce target.name

namespace SourcePackage

variable {sources : List SourcePackage} {source : SourcePackage} {target : Target} {m : ResetMethod}

/-- The blank name denotes nothing, so that nothing is generated for it. -/
theorem not_gives_blank {s : Surroundings} : ¬ source.loaded.Gives s "_" m := by
  rintro ⟨named, hnamed, -⟩
  unfold Definitions.type? at hnamed
  rw [loaded, get?_definitions, if_pos rfl] at hnamed
  cases hnamed

theorem exists_gives (hpaths : (sources.map (·.path)).Nodup) (hsource : source ∈ sources)
    (htarget : target ∈ source.loaded.targets) (honce : source.DeclaresOnce target.name)
    (hblank : target.name ≠ "_") :
    ∃ m, source.loaded.Gives (Load.ofSources sources).surroundings target.name m := by
  obtain ⟨file, hfile, spec, hspec, hname, halias, groups, hstruct⟩ :=
    exists_spec_of_mem_targets htarget
  rw [← hname] at honce hblank ⊢
  have hdefinition := honce.type?_definitions (List.mem_flatMap.2 ⟨file, hfile, hspec⟩) hblank
  have hmem : spec.resolve (Scope.ofFile sources source.ref file) ∈ source.declarations sources :=
    List.mem_flatMap.2 ⟨file, hfile, List.mem_map_of_mem hspec⟩
  have hdeclared := get?_typeTable_of_mem hpaths hsource hmem honce.count_typeSpecs
  have hrhs : spec.type.resolve (spec.scope sources source file) =
      .struct (TypeExpr.resolveFields (spec.scope sources source file) groups) := by
    rw [hstruct, TypeExpr.resolve]
  exact ⟨_, gives_iff.2 ⟨⟨_, hdefinition⟩, _, _, hdeclared, halias, congrArg _ hrhs, rfl⟩⟩

theorem typeNames_methods (hpaths : (sources.map (·.path)).Nodup) (hsource : source ∈ sources)
    (honce : source.DeclaresTargetsOnce) :
    (source.loaded.methods (Load.ofSources sources).surroundings).map (·.typeName) =
      (source.loaded.targets.map (·.name)).filter (· ≠ "_") := by
  refine LoadedPackage.typeNames_eq (fun _ _ => typeName_of_gives) fun target htarget => ?_
  rw [decide_eq_true_eq]
  constructor
  · intro hblank
    exact exists_gives hpaths hsource htarget (honce target htarget hblank) hblank
  · rintro ⟨m, hm⟩ hblank
    rw [hblank] at hm
    exact not_gives_blank hm

end SourcePackage

/-! ## Runs -/

section Runs

variable {σ : Type} {strategies : Strategies σ}

/-- The call of the writer is for the file in the directory of the package. Its contents are what the
formatter made of the generated text. Behind what stands before the methods, that text is one method
for each target that is not blank, in order, and nothing else. -/
structure SourcePackage.IsServed (source : SourcePackage) (format : Formatter σ) (s : Surroundings)
    (write : String × ByteArray) : Prop where
  path : write.1 = Path.join source.dir "reset.gen.go"
  contents : ∃ before after,
    format (source.loaded.generated s).text.toUTF8 before = (.ok write.2, after)
  methods : ∃ (methods : List ResetMethod) (spell : Ty → String),
    (source.loaded.generated s).methods = methods.map (·.render spell) ∧
      (source.loaded.generated s).text = (source.loaded.generated s).front ++
        Text.join "\n" (methods.map (·.render spell)) ∧
      methods.map (·.typeName) = ((targets source.sources).map (·.name)).filter (· ≠ "_")

theorem Emits.writes {s : Surroundings} {emissions : List Emission} {first last : σ}
    (h : Emits strategies s first emissions last) :
    List.Forall₂ (fun package write => write.1 = package.outputPath ∧ ∃ before after,
        layOut strategies s package before = (.ok write.2, after))
      (emissions.map (·.package)) (emissions.map (·.call)) := by
  induction h with
  | done => exact .nil
  | next hf _ _ ih => exact .cons ⟨rfl, _, _, hf⟩ ih

section Sources

variable {sources : List SourcePackage} {state : σ} {summary : Summary}

theorem runLoad_serves (hpaths : (sources.map (·.path)).Nodup)
    (honce : ∀ source ∈ sources, source.DeclaresTargetsOnce)
    (h : (runLoad strategies (.ofSources sources) state).result = .ok summary) :
    List.Forall₂ (·.IsServed strategies.format (Load.ofSources sources).surroundings)
      (sources.filter (·.loaded.isEmitted))
      (runLoad strategies (.ofSources sources) state).writes := by
  obtain ⟨emissions, last, hemits, hpackages, -, hwrites⟩ := exists_emits h
  have hemitted : (Load.ofSources sources).emitted =
      (sources.filter (·.loaded.isEmitted)).map (·.loaded) := by
    rw [Load.emitted, Load.ofSources, List.filter_map]
    rfl
  have hcalls := hemits.writes
  rw [hpackages, hemitted, List.forall₂_map_left_iff, ← hwrites] at hcalls
  have hall := (List.forall₂_and_left _ _).2
    ⟨fun (source : SourcePackage) h => List.mem_of_mem_filter h, hcalls⟩
  refine hall.imp fun source write hwritten => ?_
  obtain ⟨hsource, hpath, hcontents⟩ := hwritten
  exact ⟨hpath, hcontents, _, _, rfl, GeneratedSource.text_eq_front _,
    source.typeNames_methods hpaths hsource (honce source hsource)⟩

theorem leftOut_runLoad (hpaths : (sources.map (·.path)).Nodup)
    (honce : ∀ source ∈ sources, source.DeclaresTargetsOnce) {event : Event}
    (h : event ∈ (runLoad strategies (.ofSources sources) state).events) {name : String}
    (hname : event.leftOut? = some name) : name = "_" := by
  obtain ⟨package, hpackage, target, htarget, rfl, hnone⟩ := exists_target_of_mem_events h hname
  obtain ⟨source, hsource, rfl⟩ := List.mem_map.1 hpackage
  by_contra hblank
  obtain ⟨m, hm⟩ := source.exists_gives hpaths hsource htarget
    (honce source hsource target htarget hblank) hblank
  exact hnone m hm

theorem leftOut?_receiverEvents {event : Event} (h : event ∈ receiverEvents sources) :
    event.leftOut? = none := by
  obtain ⟨m, -, hm⟩ := List.mem_filterMap.1 h
  split at hm <;> cases hm
  rfl

/-- No target is dropped silently. Where the packages have paths of their own and declare the names of
their targets once, a successful run writes one file for each package with files and targets, in
order; the file has one method for each target that is not blank, in order, and no other, and no
warning says of such a target that it is missing or no struct. -/
theorem run_serves (hpaths : (sources.map (·.path)).Nodup)
    (honce : ∀ source ∈ sources, source.DeclaresTargetsOnce) {cwd root : String}
    (hrun : (run (strategies.over sources) cwd root state).result = .ok summary) :
    let o := run (strategies.over sources) cwd root state
    List.Forall₂ (·.IsServed strategies.format (Load.ofSources sources).surroundings)
        (sources.filter (·.loaded.isEmitted)) o.writes ∧
      ∀ event ∈ o.events, ∀ name, event.leftOut? = some name → name = "_" := by
  have hload := run_over_of_ok hrun
  rw [hload] at hrun
  intro o
  rw [show o = _ from hload]
  refine ⟨runLoad_serves hpaths honce hrun, ?_⟩
  intro event hevent name hname
  rcases List.mem_append.1 hevent with hevent | hevent
  · rw [leftOut?_receiverEvents hevent] at hname
    cases hname
  · exact leftOut_runLoad hpaths honce hevent hname

end Sources

end Runs

/-! ## Targets of two files, one of them blank -/

namespace Queue

def marked (name : String) (line : Nat) : Decl :=
  .types ⟨some ⟨[directive]⟩, false,
    [⟨none, name, [], false, .struct [⟨["n"], .ident "int", none⟩], line⟩]⟩

def source : SourcePackage :=
  ⟨"queue", "example.com/queue", "/queue", ["/queue/item.go", "/queue/ring.go"],
    [⟨"/queue/item.go", "queue", [], [marked "Item" 4, marked "_" 9]⟩,
      ⟨"/queue/ring.go", "queue", [], [.variables ["limit", "_"], marked "_" 6, marked "Ring" 11]⟩]⟩

theorem declaresTargetsOnce : source.DeclaresTargetsOnce := by
  unfold SourcePackage.DeclaresTargetsOnce SourcePackage.DeclaresOnce
  decide

end Queue

theorem run_serves_queue :
    ([Queue.source].map (·.path)).Nodup ∧
      (∀ source ∈ [Queue.source], source.DeclaresTargetsOnce) ∧
      (∃ summary, (run (Strategies.verbatim.over [Queue.source]) "/" "/" ()).result = .ok summary) ∧
      List.Forall₂
        (·.IsServed Strategies.verbatim.format (Load.ofSources [Queue.source]).surroundings)
        [Queue.source] (run (Strategies.verbatim.over [Queue.source]) "/" "/" ()).writes ∧
      ((targets Queue.source.sources).map (·.name)).filter (· ≠ "_") = ["Item", "Ring"] := by
  have hpaths : ([Queue.source].map (·.path)).Nodup := by decide
  have honce : ∀ source ∈ [Queue.source], source.DeclaresTargetsOnce := by
    intro source hsource
    rw [List.mem_singleton.1 hsource]
    exact Queue.declaresTargetsOnce
  have hroot : Path.absolute "/" "/" = .ok "/" := by rfl
  obtain ⟨summary, hok⟩ := Strategies.succeeds_verbatim.exists_summary [Queue.source] hroot ()
  exact ⟨hpaths, honce, ⟨summary, hok⟩, (run_serves hpaths honce hok).1, by decide⟩

end ResetMethods

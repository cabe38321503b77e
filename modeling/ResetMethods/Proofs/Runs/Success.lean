import ResetMethods.Proofs.Runs.Ending

/-!
# ResetMethods.Proofs.Runs.Success

What a successful run has written, and runs that cannot fail.

* `exists_emits`: a successful run lays out and writes each package that gets a file.
* `exists_write`: so the file of every such package was written.
* `Outcome.Produces`: a run succeeds with certain files.
* `Strategies.LaysOut.produces`: where the layout depends on the text only, they are the layouts of
  what the packages are given.
* `Strategies.over`: a run over packages that are given.
* `Strategies.IsReliable`: the built-in formatter and a writer that never fails. Then a run succeeds
  exactly if the formatter accepts every text (`IsReliable.run_over_eq_ok_iff`).
* `Strategies.Succeeds`: the formatter refuses no text, and every write succeeds. Then so does the
  run (`Succeeds.produces`, `Succeeds.exists_summary`).
* `Strategies.verbatim`: texts stay as they are, and nothing is kept of what is written.
-/

namespace ResetMethods

/-- The formatter answers every text with its layout, and the writer never fails. -/
structure Strategies.Succeeds {σ : Type} (strategies : Strategies σ)
    (layout : ByteArray → ByteArray) : Prop where
  format : ∀ source state, (strategies.format source state).1 = .ok (layout source)
  write : ∀ path contents state, (strategies.write path contents state).1 = .ok ()

/-- Whatever text the formatter accepts, it answers with the layout of the text. -/
def Strategies.LaysOut {σ : Type} (strategies : Strategies σ) (layout : ByteArray → ByteArray) :
    Prop :=
  ∀ source state contents, (strategies.format source state).1 = .ok contents →
    contents = layout source

/-- The built-in layout of a text; one that it refuses stays as it is. -/
def canonicalLayout (source : ByteArray) : ByteArray :=
  (Layout.canonicalBytes source).toOption.getD source

/-- The formatter is the built-in one, and the writer never fails. -/
structure Strategies.IsReliable {σ : Type} (strategies : Strategies σ) : Prop where
  format : strategies.format = canonicalFormatter
  write : ∀ path contents state, (strategies.write path contents state).1 = .ok ()

/-- The same formatter and writer over some packages, which are resolved together. -/
def Strategies.over {σ : Type} (strategies : Strategies σ) (sources : List SourcePackage) :
    Strategies σ :=
  { strategies with load := fun _ _ => ⟨receiverEvents sources, .ok (.ofSources sources)⟩ }

theorem run_over {σ : Type} (strategies : Strategies σ) (sources : List SourcePackage)
    (cwd root : String) (state : σ) :
    run (strategies.over sources) cwd root state =
      match Path.absolute cwd root with
      | .error cause => .failed (.unresolvable root cause) state
      | .ok _ =>
        .after (receiverEvents sources)
          (runLoad (strategies.over sources) (.ofSources sources) state) := by
  unfold run
  cases Path.absolute cwd root with
  | error cause => rfl
  | ok path => rfl

/-- A run over some packages that succeeds has come to their load. -/
theorem run_over_of_ok {σ : Type} {strategies : Strategies σ} {sources : List SourcePackage}
    {cwd root : String} {state : σ} {summary : Summary}
    (h : (run (strategies.over sources) cwd root state).result = .ok summary) :
    run (strategies.over sources) cwd root state =
      .after (receiverEvents sources)
        (runLoad (strategies.over sources) (.ofSources sources) state) := by
  rw [run_over] at h ⊢
  cases hroot : Path.absolute cwd root with
  | error cause =>
    rw [hroot] at h
    cases h
  | ok path => rfl

def LoadedPackage.emission (layout : ByteArray → ByteArray) (s : Surroundings)
    (package : LoadedPackage) : Emission :=
  ⟨package, layout (package.generated s).text.toUTF8⟩

/-- What the summary says of the file of a package, and its contents. -/
def LoadedPackage.output (layout : ByteArray → ByteArray) (s : Surroundings)
    (package : LoadedPackage) : GeneratedFile × ByteArray :=
  ((package.emission layout s).file s, (package.emission layout s).contents)

def Load.outputs (layout : ByteArray → ByteArray) (load : Load) : List (GeneratedFile × ByteArray) :=
  load.emitted.map (·.output layout load.surroundings)

def SourcePackage.loaded (source : SourcePackage) : LoadedPackage := ⟨source, source.definitions⟩

/-- The file of a package of a load and its contents, if it gets one. -/
def SourcePackage.output? (layout : ByteArray → ByteArray) (s : Surroundings)
    (source : SourcePackage) : Option (GeneratedFile × ByteArray) :=
  if source.loaded.isEmitted then some (source.loaded.output layout s) else none

theorem SourcePackage.package_of_output? {layout : ByteArray → ByteArray} {s : Surroundings}
    {source : SourcePackage} {output : GeneratedFile × ByteArray}
    (h : source.output? layout s = some output) : output.1.package = source.path := by
  unfold output? at h
  split at h
  · cases h
    rfl
  · cases h

theorem Load.outputs_ofSources (layout : ByteArray → ByteArray) (sources : List SourcePackage) :
    (Load.ofSources sources).outputs layout =
      sources.filterMap (·.output? layout (Load.ofSources sources).surroundings) := by
  have hlist : ∀ (s : Surroundings) (sources : List SourcePackage),
      ((sources.map SourcePackage.loaded).filter (·.isEmitted)).map (·.output layout s) =
        sources.filterMap (·.output? layout s) := by
    intro s sources
    induction sources with
    | nil => rfl
    | cons source rest ih =>
      rw [List.map_cons, List.filter_cons, List.filterMap_cons, ← ih, SourcePackage.output?]
      split <;> rfl
  exact hlist _ sources

/-- The run succeeds with these files, and hands nothing else to the writer. -/
structure Outcome.Produces {σ : Type} (o : Outcome σ) (outputs : List (GeneratedFile × ByteArray)) :
    Prop where
  result : o.result = .ok ⟨outputs.map (·.1)⟩
  writes : o.writes = outputs.map fun output => (output.1.path, output.2)

section

variable {σ : Type} {strategies : Strategies σ} {s : Surroundings} {layout : ByteArray → ByteArray}

/-- Packages that the formatter lays out in every state are emitted by a writer that never fails. -/
theorem exists_emits_of_layOut {packages : List LoadedPackage} {contents : LoadedPackage → ByteArray}
    (hformat : ∀ package ∈ packages, ∀ state,
      (layOut strategies s package state).1 = .ok (contents package))
    (hwrite : ∀ path bytes state, (strategies.write path bytes state).1 = .ok ()) (state : σ) :
    ∃ last, Emits strategies s state (packages.map fun package => ⟨package, contents package⟩)
      last := by
  induction packages generalizing state with
  | nil => exact ⟨state, .done⟩
  | cons package rest ih =>
    obtain ⟨hpackage, hrest⟩ := List.forall_mem_cons.1 hformat
    have hanswer := hpackage state
    cases hf : layOut strategies s package state with
    | mk answer middle =>
      rw [hf] at hanswer
      obtain rfl : answer = .ok (contents package) := hanswer
      have hwritten := hwrite package.outputPath (contents package) middle
      cases hw : strategies.write package.outputPath (contents package) middle with
      | mk answer second =>
        rw [hw] at hwritten
        obtain rfl : answer = .ok () := hwritten
        obtain ⟨last, hemits⟩ := ih hrest second
        exact ⟨last, .next hf hw hemits⟩

theorem Strategies.Succeeds.emits (h : strategies.Succeeds layout) (packages : List LoadedPackage)
    (state : σ) : ∃ last, Emits strategies s state (packages.map (·.emission layout s)) last :=
  exists_emits_of_layOut (fun _ _ state => h.format _ state) h.write state

theorem exists_emits {load : Load} {state : σ} {summary : Summary}
    (h : (runLoad strategies load state).result = .ok summary) :
    ∃ emissions last, Emits strategies load.surroundings state emissions last ∧
      emissions.map (·.package) = load.emitted ∧
      summary = ⟨emissions.map (·.file load.surroundings)⟩ ∧
      (runLoad strategies load state).writes = emissions.map (·.call) := by
  have hending : Ending strategies load.surroundings load.emitted state
      (runLoad strategies load state).result (runLoad strategies load state).writes
      (runLoad strategies load state).state := runPackages_ending load.packages state
  rw [h] at hending
  generalize load.emitted = packages at hending ⊢
  generalize (runLoad strategies load state).writes = writes at hending ⊢
  -- of the endings only `finished` has a summary
  cases hending with
  | @finished emissions first last hemits => exact ⟨emissions, _, hemits, rfl, rfl, rfl⟩

theorem Emits.exists_layOut {emissions : List Emission} {first last : σ}
    (h : Emits strategies s first emissions last) {e : Emission} (he : e ∈ emissions) :
    ∃ before after, layOut strategies s e.package before = (.ok e.contents, after) := by
  induction h with
  | done => cases he
  | next hf _ _ ih =>
    rcases List.mem_cons.1 he with rfl | he
    · exact ⟨_, _, hf⟩
    · exact ih he

theorem exists_write {load : Load} {state : σ} {summary : Summary}
    (h : (runLoad strategies load state).result = .ok summary) {package : LoadedPackage}
    (hp : package ∈ load.emitted) :
    ∃ contents before after,
      layOut strategies load.surroundings package before = (.ok contents, after) ∧
        (package.outputPath, contents) ∈ (runLoad strategies load state).writes := by
  obtain ⟨emissions, last, hemits, hpackages, -, hwrites⟩ := exists_emits h
  rw [← hpackages] at hp
  obtain ⟨e, he, rfl⟩ := List.mem_map.1 hp
  obtain ⟨before, after, hlaid⟩ := hemits.exists_layOut he
  exact ⟨e.contents, before, after, hlaid, hwrites ▸ List.mem_map_of_mem he⟩

theorem Strategies.LaysOut.produces (h : strategies.LaysOut layout) {load : Load} {state : σ}
    {summary : Summary} (hrun : (runLoad strategies load state).result = .ok summary) :
    (runLoad strategies load state).Produces (load.outputs layout) := by
  obtain ⟨emissions, last, hemits, hpackages, rfl, hwrites⟩ := exists_emits hrun
  have hemissions : emissions = load.emitted.map (·.emission layout load.surroundings) := by
    rw [← hpackages, List.map_map]
    refine (List.map_id'' (fun e => rfl) _).symm.trans (List.map_congr_left fun e he => ?_)
    obtain ⟨before, after, hlaid⟩ := hemits.exists_layOut he
    have hcontents := h _ before e.contents (congrArg Prod.fst hlaid)
    rw [Function.comp_apply, LoadedPackage.emission, ← hcontents]
  constructor
  · rw [hrun, hemissions]
    simp [Load.outputs, LoadedPackage.output]
  · rw [hwrites, hemissions]
    simp [Load.outputs, LoadedPackage.output, Emission.call, Emission.file]

theorem Strategies.LaysOut.produces_over (h : strategies.LaysOut layout)
    {sources : List SourcePackage} {cwd root : String} {state : σ} {summary : Summary}
    (hrun : (run (strategies.over sources) cwd root state).result = .ok summary) :
    (run (strategies.over sources) cwd root state).Produces
      (sources.filterMap (·.output? layout (Load.ofSources sources).surroundings)) := by
  have hload := run_over_of_ok hrun
  rw [hload] at hrun
  have hover : (strategies.over sources).LaysOut layout := h
  have hproduces := hover.produces hrun
  rw [Load.outputs_ofSources] at hproduces
  rw [hload]
  exact ⟨hproduces.result, hproduces.writes⟩

/-- The built-in formatter answers by the text alone. -/
theorem Strategies.laysOut_canonical (hformat : strategies.format = canonicalFormatter) :
    strategies.LaysOut canonicalLayout := by
  intro source state contents hcontents
  rw [hformat] at hcontents
  have hcanonical : Layout.canonicalBytes source = .ok contents := hcontents
  rw [canonicalLayout, hcanonical]
  rfl

/-- A reliable run over a load succeeds exactly if the built-in formatter accepts every text. -/
theorem Strategies.IsReliable.runLoad_eq_ok_iff (h : strategies.IsReliable) (load : Load)
    (state : σ) :
    (∃ summary, (runLoad strategies load state).result = .ok summary) ↔
      ∀ package ∈ load.emitted, ∃ contents,
        Layout.canonicalBytes (package.generated load.surroundings).text.toUTF8 = .ok contents := by
  have hanswer : ∀ package state, (layOut strategies load.surroundings package state).1 =
      Layout.canonicalBytes (package.generated load.surroundings).text.toUTF8 := by
    intro package state
    rw [layOut, h.format]
    rfl
  constructor
  · rintro ⟨summary, hrun⟩ package hp
    obtain ⟨contents, before, after, hlaid, -⟩ := exists_write hrun hp
    rw [← hanswer package before, hlaid]
    exact ⟨contents, rfl⟩
  · intro haccepts
    have hformat : ∀ package ∈ load.emitted, ∀ state,
        (layOut strategies load.surroundings package state).1 =
          .ok (canonicalLayout (package.generated load.surroundings).text.toUTF8) := by
      intro package hp state
      obtain ⟨contents, hcontents⟩ := haccepts package hp
      rw [hanswer, canonicalLayout, hcontents]
      rfl
    obtain ⟨last, hemits⟩ := exists_emits_of_layOut hformat h.write state
    have hpackages : load.packages.filter (·.isEmitted) =
        (load.emitted.map fun package => (⟨package, canonicalLayout
          (package.generated load.surroundings).text.toUTF8⟩ : Emission)).map (·.package) := by
      rw [List.map_map]
      exact (List.map_id _).symm
    exact ⟨_, (hemits.runPackages hpackages).1⟩

/-- A reliable run over some packages succeeds exactly if there is a root and the built-in formatter
accepts every text. -/
theorem Strategies.IsReliable.run_over_eq_ok_iff (h : strategies.IsReliable)
    (sources : List SourcePackage) (cwd root : String) (state : σ) :
    (∃ summary, (run (strategies.over sources) cwd root state).result = .ok summary) ↔
      (∃ path, Path.absolute cwd root = .ok path) ∧
      ∀ package ∈ (Load.ofSources sources).emitted, ∃ contents, Layout.canonicalBytes
        (package.generated (Load.ofSources sources).surroundings).text.toUTF8 = .ok contents := by
  have hover : (strategies.over sources).IsReliable := ⟨h.format, h.write⟩
  rw [run_over, ← hover.runLoad_eq_ok_iff (.ofSources sources) state]
  cases Path.absolute cwd root with
  | error cause => simp [Outcome.failed]
  | ok path => simp [Outcome.after]

theorem Strategies.Succeeds.laysOut (h : strategies.Succeeds layout) : strategies.LaysOut layout := by
  intro source state contents hformat
  rw [h.format] at hformat
  exact (Except.ok.inj hformat).symm

theorem Strategies.Succeeds.produces (h : strategies.Succeeds layout) (load : Load) (state : σ) :
    (runLoad strategies load state).Produces (load.outputs layout) := by
  obtain ⟨last, hemits⟩ := h.emits (s := load.surroundings) load.emitted state
  have hpackages : load.packages.filter (·.isEmitted) =
      (load.emitted.map (·.emission layout load.surroundings)).map (·.package) := by
    simp [Function.comp_def, LoadedPackage.emission, Load.emitted]
  exact h.laysOut.produces (hemits.runPackages hpackages).1

theorem Strategies.Succeeds.exists_summary (h : strategies.Succeeds layout)
    (sources : List SourcePackage) {cwd root path : String} (hroot : Path.absolute cwd root = .ok path)
    (state : σ) : ∃ summary, (run (strategies.over sources) cwd root state).result = .ok summary := by
  have hover : (strategies.over sources).Succeeds layout := ⟨h.format, h.write⟩
  rw [run_over, hroot]
  exact ⟨_, (hover.produces (.ofSources sources) state).result⟩

end

/-- Texts stay as they are, and nothing is kept of what is written. -/
def Strategies.verbatim : Strategies Unit where
  load _ _ := .ofExcept (.ok default)
  format source state := (.ok source, state)
  write _ _ state := (.ok (), state)

/-- Texts get the built-in layout, and nothing is kept of what is written. -/
def Strategies.canonical : Strategies Unit :=
  { Strategies.verbatim with format := canonicalFormatter }

theorem Strategies.isReliable_canonical : Strategies.canonical.IsReliable := ⟨rfl, fun _ _ _ => rfl⟩

theorem Strategies.succeeds_verbatim : Strategies.verbatim.Succeeds id :=
  ⟨fun _ _ => rfl, fun _ _ _ => rfl⟩

end ResetMethods

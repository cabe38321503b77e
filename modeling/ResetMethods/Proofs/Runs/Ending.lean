import ResetMethods.Run

/-!
# ResetMethods.Proofs.Runs.Ending

How a run ends, and what it has handed to the writer by then.

* `Load.emitted`: the packages that get a file, in the order of the load.
* `Emits`: some packages are laid out and written one after the other, without a failure.
* `Ending`: the work on the packages comes to its end, or to the first package that is refused or
  cannot be written. `runPackages_ending`: so it does, for every formatter and every writer.
* `RunEnding`: the same for a whole run, which may fail before the first package.
* `run_ending`: every run ends in one of these ways, and succeeds exactly if nothing fails.

The formatter and the writer are functions of a state, so that an answer may depend on all that
happened before it. `Emits` goes through the states in between.
-/

namespace ResetMethods

/-- Whether the package gets a file: it has source files and targets. -/
def LoadedPackage.isEmitted (package : LoadedPackage) : Bool :=
  !package.source.files.isEmpty && !package.targets.isEmpty

def Load.emitted (load : Load) : List LoadedPackage := load.packages.filter (·.isEmitted)

theorem LoadedPackage.isEmitted_eq (package : LoadedPackage) :
    package.isEmitted = package.skipEvent?.isNone := by
  unfold isEmitted skipEvent?
  cases package.source.files with
  | nil => simp
  | cons file files =>
    cases package.targets with
    | nil => simp
    | cons target targets => simp

/-- A package with the contents that the formatter gave to its file. -/
structure Emission where
  package : LoadedPackage
  contents : ByteArray

namespace Emission

/-- The file of the package, in its directory. -/
def path (e : Emission) : String := Path.join e.package.source.dir "reset.gen.go"

/-- The call of the writer. -/
def call (e : Emission) : String × ByteArray := (e.path, e.contents)

/-- The entry in the summary. -/
def file (s : Surroundings) (e : Emission) : GeneratedFile :=
  ⟨e.path, e.package.source.path, (e.package.generated s).methods.length⟩

theorem path_eq (e : Emission) : e.path = e.package.outputPath := rfl

end Emission

section Packages

variable {σ : Type} (strategies : Strategies σ) (s : Surroundings)

/-- What the formatter answers for the file of a package. -/
def layOut (package : LoadedPackage) (state : σ) : Except FormatError ByteArray × σ :=
  strategies.format (package.generated s).text.toUTF8 state

/-- Each package is laid out and written in its turn, from the first state to the last. -/
inductive Emits : σ → List Emission → σ → Prop where
  | done {state : σ} : Emits state [] state
  | next {e : Emission} {rest : List Emission} {first middle second last : σ} :
      layOut strategies s e.package first = (.ok e.contents, middle) →
      strategies.write e.path e.contents middle = (.ok (), second) →
      Emits second rest last → Emits first (e :: rest) last

/-- How the work on some packages ends, from a state on: the result, the calls of the writer and the
state at the end. -/
inductive Ending : List LoadedPackage → σ → Except RunError Summary → List (String × ByteArray) →
    σ → Prop where
  /-- All packages are written. -/
  | finished {emissions : List Emission} {first last : σ} :
      Emits strategies s first emissions last →
      Ending (emissions.map (·.package)) first (.ok ⟨emissions.map (·.file s)⟩)
        (emissions.map (·.call)) last
  /-- The formatter refuses a package; the packages before it are written. -/
  | refused {emissions : List Emission} {package : LoadedPackage} {rest : List LoadedPackage}
      {first middle last : σ} {cause : FormatError} :
      Emits strategies s first emissions middle →
      layOut strategies s package middle = (.error cause, last) →
      Ending (emissions.map (·.package) ++ package :: rest) first
        (.error (.format package.source.path cause)) (emissions.map (·.call)) last
  /-- The writer fails on a package; the packages before it are written. -/
  | unwritten {emissions : List Emission} {e : Emission} {rest : List LoadedPackage}
      {first middle next last : σ} {cause : IoError} :
      Emits strategies s first emissions middle →
      layOut strategies s e.package middle = (.ok e.contents, next) →
      strategies.write e.path e.contents next = (.error cause, last) →
      Ending (emissions.map (·.package) ++ e.package :: rest) first
        (.error (.write e.path cause)) ((emissions ++ [e]).map (·.call)) last

variable {strategies s}

theorem Ending.cons {e : Emission} {packages : List LoadedPackage} {first middle second : σ}
    {o : Outcome σ} (hf : layOut strategies s e.package first = (.ok e.contents, middle))
    (hw : strategies.write e.path e.contents middle = (.ok (), second))
    (h : Ending strategies s packages second o.result o.writes o.state) :
    Ending strategies s (e.package :: packages) first (o.afterFile (e.file s)).result
      (e.call :: o.writes) o.state := by
  obtain ⟨result, events, writes, state⟩ := o
  cases h with
  | finished h => exact .finished (.next hf hw h)
  | refused h hr => exact .refused (.next hf hw h) hr
  | unwritten h hr hu => exact .unwritten (.next hf hw h) hr hu

theorem runPackages_ending (packages : List LoadedPackage) (state : σ) :
    let o := runPackages strategies s packages state
    Ending strategies s (packages.filter (·.isEmitted)) state o.result o.writes o.state := by
  induction packages generalizing state with
  | nil => exact .finished .done
  | cons package rest ih =>
    have hemitted := package.isEmitted_eq
    cases hs : package.skipEvent? with
    | some event =>
      simp only [runPackages, hs, List.filter_cons, hemitted, Option.isNone_some]
      exact ih state
    | none =>
      have hfirst : Emits strategies s state [] state := .done
      simp only [runPackages, hs, List.filter_cons, hemitted, Option.isNone_none, if_true]
      cases hf : strategies.format (package.generated s).text.toUTF8 state with
      | mk answer middle =>
        cases answer with
        | error cause => exact .refused hfirst hf
        | ok contents =>
          simp only
          cases hw : strategies.write package.outputPath contents middle with
          | mk answer second =>
            cases answer with
            | error cause => exact .unwritten (e := ⟨package, contents⟩) hfirst hf hw
            | ok _ => exact Ending.cons (e := ⟨package, contents⟩) hf hw (ih second)

theorem Emits.runPackages {emissions : List Emission} {packages : List LoadedPackage}
    {first last : σ} (h : Emits strategies s first emissions last)
    (hp : packages.filter (·.isEmitted) = emissions.map (·.package)) :
    let o := runPackages strategies s packages first
    o.result = .ok ⟨emissions.map (·.file s)⟩ ∧ o.writes = emissions.map (·.call) ∧
      o.state = last := by
  induction packages generalizing emissions first with
  | nil =>
    rw [List.filter_nil] at hp
    obtain rfl := List.map_eq_nil_iff.1 hp.symm
    cases h
    exact ⟨rfl, rfl, rfl⟩
  | cons package rest ih =>
    have hemitted := package.isEmitted_eq
    cases hs : package.skipEvent? with
    | some event =>
      rw [List.filter_cons, hemitted, hs] at hp
      simp only [ResetMethods.runPackages, hs]
      exact ih h hp
    | none =>
      rw [List.filter_cons, hemitted, hs, Option.isNone_none, if_pos rfl] at hp
      cases h with
      | done => cases hp
      | @next e emissions _ middle second _ hf hw hrest =>
        obtain ⟨rfl, htail⟩ := List.cons.inj hp
        obtain ⟨hresult, hwrites, hstate⟩ := ih hrest htail
        simp only [layOut] at hf
        rw [e.path_eq] at hw
        simp only [ResetMethods.runPackages, hs, hf, hw]
        simp [Outcome.after, Outcome.afterWrite, Outcome.afterFile, hresult, hwrites, hstate,
          Emission.file, Emission.call, Emission.path_eq]

end Packages

/-! ## Whole runs -/

section Run

variable {σ : Type} (strategies : Strategies σ) (cwd root : String) (state : σ)

/-- How a run ends: the result, the calls of the writer and the state at the end. -/
inductive RunEnding : Except RunError Summary → List (String × ByteArray) → σ → Prop where
  | unresolvable {cause : IoError} :
      Path.absolute cwd root = .error cause → RunEnding (.error (.unresolvable root cause)) [] state
  | unloaded {path : String} {cause : LoadError} :
      Path.absolute cwd root = .ok path → (strategies.load path state).result = .error cause →
      RunEnding (.error (.load cause)) [] state
  | loaded {path : String} {load : Load} {result : Except RunError Summary}
      {writes : List (String × ByteArray)} {last : σ} :
      Path.absolute cwd root = .ok path → (strategies.load path state).result = .ok load →
      Ending strategies load.surroundings load.emitted state result writes last →
      RunEnding result writes last

/-- The root leads to a load, and all packages of it that get a file are laid out and written. -/
def NothingFails : Prop :=
  ∃ path load emissions last, Path.absolute cwd root = .ok path ∧
    (strategies.load path state).result = .ok load ∧
    load.emitted = emissions.map (·.package) ∧
    Emits strategies load.surroundings state emissions last

variable {strategies cwd root state}

theorem run_of_load {path : String} {load : Load} (hp : Path.absolute cwd root = .ok path)
    (hl : (strategies.load path state).result = .ok load) :
    let o := run strategies cwd root state
    let p := runPackages strategies load.surroundings load.packages state
    o.result = p.result ∧ o.writes = p.writes ∧ o.state = p.state := by
  simp only [run, hp, hl]
  exact ⟨rfl, rfl, rfl⟩

theorem run_of_unloaded {path : String} {cause : LoadError} (hp : Path.absolute cwd root = .ok path)
    (hl : (strategies.load path state).result = .error cause) :
    let o := run strategies cwd root state
    o.result = .error (.load cause) ∧ o.writes = [] ∧ o.state = state := by
  simp only [run, hp, hl]
  exact ⟨rfl, rfl, rfl⟩

theorem RunEnding.nothingFails {summary : Summary} {writes : List (String × ByteArray)} {last : σ}
    (h : RunEnding strategies cwd root state (.ok summary) writes last) :
    NothingFails strategies cwd root state := by
  cases h with
  | @loaded path load _ _ _ hp hl h =>
    -- of the endings only `finished` has a summary
    generalize hpackages : load.emitted = packages at h
    cases h with
    | finished h => exact ⟨path, load, _, last, hp, hl, hpackages, h⟩

theorem NothingFails.exists_summary (h : NothingFails strategies cwd root state) :
    ∃ summary, (run strategies cwd root state).result = .ok summary := by
  obtain ⟨path, load, emissions, last, hp, hl, hpackages, h⟩ := h
  obtain ⟨hresult, -, -⟩ := h.runPackages hpackages
  rw [(run_of_load hp hl).1]
  exact ⟨_, hresult⟩

theorem runEnding_run (strategies : Strategies σ) (cwd root : String) (state : σ) :
    RunEnding strategies cwd root state (run strategies cwd root state).result
      (run strategies cwd root state).writes (run strategies cwd root state).state := by
  cases hp : Path.absolute cwd root with
  | error cause =>
    simp only [run, hp]
    exact .unresolvable hp
  | ok path =>
    cases hl : (strategies.load path state).result with
    | error cause =>
      obtain ⟨hresult, hwrites, hstate⟩ := run_of_unloaded hp hl
      rw [hresult, hwrites, hstate]
      exact .unloaded hp hl
    | ok load =>
      obtain ⟨hresult, hwrites, hstate⟩ := run_of_load hp hl
      rw [hresult, hwrites, hstate]
      exact .loaded hp hl (runPackages_ending load.packages state)

/-- Every run ends in one of the ways that `RunEnding` lists, whatever the loader, the formatter and
the writer do, and it succeeds exactly if nothing fails. -/
theorem run_ending {σ : Type} (strategies : Strategies σ) (cwd root : String) (state : σ) :
    let o := run strategies cwd root state
    RunEnding strategies cwd root state o.result o.writes o.state ∧
      ((∃ summary, o.result = .ok summary) ↔ NothingFails strategies cwd root state) := by
  have hending := runEnding_run strategies cwd root state
  refine ⟨hending, ?_, NothingFails.exists_summary⟩
  rintro ⟨summary, hsummary⟩
  rw [hsummary] at hending
  exact hending.nothingFails

end Run

end ResetMethods

import ResetMethods.Generation
import ResetMethods.Proofs.Types.Declared

/-!
# ResetMethods.Proofs.Generation.Targets

Which targets of a package get a method.

* `ResetMethod.of?_eq_some_iff`: a name gets a method when its declaration is no alias and has the
  underlying type of a struct, and the method is the one for the fields of that struct.
* `LoadedPackage.Gives`: the method that a name of a package gets.
* `LoadedPackage.mem_methods_iff`: the methods of a package are those that its targets get.
* `LoadedPackage.typeNames_eq`: the methods come in the order of the targets that get one.
* `LoadedPackage.count_typeName`: a name that gets a method gets one for each target of that name.
* `SourcePackage.gives_iff`: which names of a loaded package get a method, by the table of the load.
* `exists_spec_of_mem_targets`: a target is a struct type of some file.
-/

namespace ResetMethods

/-- A target is a type of some file that is no alias, and is written as a struct type. -/
theorem exists_spec_of_mem_targets {files : List SourceFile} {target : Target}
    (h : target ∈ targets files) :
    ∃ file ∈ files, ∃ spec ∈ file.typeSpecs, spec.name = target.name ∧ spec.isAlias = false ∧
      ∃ groups, spec.type = .struct groups := by
  obtain ⟨file, hfile, h⟩ := List.mem_flatMap.1 h
  obtain ⟨spec, hspec, rfl⟩ := List.mem_map.1 h
  obtain ⟨decl, hdecl, hspec⟩ := List.mem_flatMap.1 (List.mem_of_mem_filter hspec)
  cases decl with
  | types decl =>
    obtain ⟨hspec, hmarked⟩ := List.mem_filter.1 hspec
    rw [Bool.and_eq_true, Bool.and_eq_true, Bool.not_eq_true'] at hmarked
    obtain ⟨⟨-, halias⟩, hstruct⟩ := hmarked
    refine ⟨file, hfile, spec, List.mem_flatMap.2 ⟨_, hdecl, hspec⟩, rfl, halias, ?_⟩
    unfold TypeExpr.isStruct at hstruct
    split at hstruct
    · exact ⟨_, ‹_›⟩
    · cases hstruct
  | _ => cases hspec

theorem ResetMethod.of?_eq_some_iff {s : Surroundings} {receiver : String} {n : Named Ty}
    {m : ResetMethod} :
    of? s receiver n = some m ↔ ∃ d fields, s.table.lookup n = some d ∧ d.isAlias = false ∧
      s.table.underlying d.rhs = some (.struct fields) ∧
      m = ⟨receiver, d.name, (fields.filter (Field.isIncluded d.key.package)).map fun f =>
        s.reset (.ofField receiver f.name) f.type⟩ := by
  unfold of?
  cases s.table.lookup n with
  | none => simp
  | some d =>
    cases ha : d.isAlias with
    | true => simp [ha]
    | false =>
      simp only [Option.some.injEq]
      cases hu : s.table.underlying d.rhs with
      | none => simp [hu]
      | some shape => cases shape <;> simp [hu, ha, eq_comm]

namespace LoadedPackage

variable {package : LoadedPackage} {s : Surroundings} {name : String} {m : ResetMethod}

def Gives (package : LoadedPackage) (s : Surroundings) (name : String) (m : ResetMethod) : Prop :=
  ∃ named, package.definitions.type? name = some named ∧
    ResetMethod.of? s package.receiver named = some m

theorem outcome_eq_ok_iff {target : Target} :
    package.outcome s target = .ok m ↔ package.Gives s target.name m := by
  unfold outcome Gives
  cases package.definitions.type? target.name with
  | none => simp
  | some named =>
    simp only [Option.some.injEq, exists_eq_left']
    cases ResetMethod.of? s package.receiver named <;> simp

theorem mem_methods_iff :
    m ∈ package.methods s ↔ ∃ target ∈ package.targets, package.Gives s target.name m := by
  simp only [methods, outcomes, List.mem_filterMap, List.mem_map, ← outcome_eq_ok_iff]
  constructor
  · rintro ⟨_, ⟨target, htarget, rfl⟩, hm⟩
    split at hm
    · rename_i method hok
      cases hm
      exact ⟨target, htarget, hok⟩
    · cases hm
  · rintro ⟨target, htarget, hok⟩
    exact ⟨_, ⟨target, htarget, rfl⟩, by rw [hok]⟩

/-- Where targets get methods of their own names, the methods come in the order of the targets. -/
theorem typeNames_eq {p : String → Bool} (hname : ∀ name m, package.Gives s name m → m.typeName = name)
    (h : ∀ target ∈ package.targets,
      p target.name = true ↔ ∃ m, package.Gives s target.name m) :
    (package.methods s).map (·.typeName) = (package.targets.map (·.name)).filter p := by
  unfold methods outcomes
  generalize package.targets = targets at h ⊢
  induction targets with
  | nil => rfl
  | cons target rest ih =>
    obtain ⟨htarget, hrest⟩ := List.forall_mem_cons.1 h
    rw [List.map_cons, List.filterMap_cons, List.map_cons, List.filter_cons, ← ih hrest]
    cases ho : package.outcome s target with
    | error event =>
      have hnone : p target.name ≠ true := by
        intro hp
        obtain ⟨m, hm⟩ := htarget.1 hp
        rw [outcome_eq_ok_iff.2 hm] at ho
        cases ho
      rw [if_neg hnone]
    | ok method =>
      have hgives := outcome_eq_ok_iff.1 ho
      rw [if_pos (htarget.2 ⟨method, hgives⟩), List.map_cons, hname target.name method hgives]

open Classical in
theorem count_typeName (hname : ∀ name m, package.Gives s name m → m.typeName = name)
    (h : package.Gives s name m) :
    ((package.methods s).map (·.typeName)).count name =
      (package.targets.map (·.name)).count name := by
  rw [typeNames_eq (p := fun name => decide (∃ m, package.Gives s name m)) hname fun target _ => by
    rw [decide_eq_true_eq]]
  exact List.count_filter (decide_eq_true ⟨m, h⟩)

end LoadedPackage

/-! ## Loads -/

section Loaded

variable {sources : List SourcePackage} {source : SourcePackage} {name : String} {m : ResetMethod}

/-- A name of a loaded package gets a method when it denotes a type, and the type is declared as a
struct type, or by way of one. -/
theorem SourcePackage.gives_iff :
    let s := (Load.ofSources sources).surroundings
    let package : LoadedPackage := ⟨source, source.definitions⟩
    package.Gives s name m ↔ (∃ named, source.definitions.type? name = some named) ∧
      ∃ d fields, s.table.get? ⟨source.path, name⟩ = some d ∧ d.isAlias = false ∧
        s.table.underlying d.rhs = some (.struct fields) ∧
        m = ⟨package.receiver, d.name, (fields.filter (Field.isIncluded source.path)).map fun f =>
          s.reset (.ofField package.receiver f.name) f.type⟩ := by
  intro s package
  constructor
  · rintro ⟨named, hnamed, hm⟩
    obtain ⟨d, fields, hd, halias, hu, rfl⟩ := ResetMethod.of?_eq_some_iff.1 hm
    rw [type?_definitions hnamed] at hd
    rw [key_of_typeTable hd]
    exact ⟨⟨named, hnamed⟩, d, fields, hd, halias, hu, rfl⟩
  · rintro ⟨⟨named, hnamed⟩, d, fields, hd, halias, hu, rfl⟩
    refine ⟨named, hnamed, ResetMethod.of?_eq_some_iff.2 ⟨d, fields, ?_, halias, hu, ?_⟩⟩
    · rw [type?_definitions hnamed]
      exact hd
    · rw [key_of_typeTable hd]

theorem SourcePackage.typeName_of_gives
    (h : LoadedPackage.Gives ⟨source, source.definitions⟩ (Load.ofSources sources).surroundings
      name m) : m.typeName = name := by
  obtain ⟨-, d, fields, hd, -, -, rfl⟩ := gives_iff.1 h
  exact congrArg TypeKey.name (key_of_typeTable hd)

end Loaded

end ResetMethods
